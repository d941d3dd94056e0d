import Startup.Job.Spec

/-!
# What a job does to the rest of the system

A job holds blocks on events: one for every leaf of its `stop on` condition
that has matched, and one for every `BLOCKED_EVENT` entry of its `blocking`
list (`Job.refs`).  `Owned` says that the queue agrees.

`Frame` is what every call on a job keeps:

* the queue only grows, and an event that was there changes at most its
  blocker count and its failure;
* a new event has a `BLOCKED_JOB` entry for the job exactly when it is the
  event that the job now waits for;
* the blocker counts change by as much as the blocks that the job holds.

A job that holds its blocks never gives back one that it does not hold, and
never looks at an event that is gone (`Fault.ofQueue`).
-/

namespace Startup

open Lib

/-- The events that a job blocks, as often as it blocks them. -/
def Job.refs (job : Job) : List EventId :=
  job.stopOn.elim [] EventOperator.refs ++ job.blocking.filterMap Blocked.event?

/-- The queue has the blocks that a job holds. -/
structure Owned (sys : Sys) (job : Job) : Prop where
  held : ∀ e, job.refs.count e ≤ sys.blockers e
  entries : ∀ b ∈ job.blocking, b.mayWait = true
  linked : ∀ root, job.stopOn = some root → root.Linked

namespace Owned

variable {sys : Sys} {job : Job}

theorem releasable (h : Owned sys job) : Releasable sys job.blocking := by
  refine ⟨h.entries, fun e => ?_⟩
  have := h.held e
  rw [Job.refs, List.count_append] at this
  omega

theorem grounded (h : Owned sys job) {root : EventOperator} (hr : job.stopOn = some root) :
    Grounded sys root := by
  refine ⟨h.linked root hr, fun e he => Sys.event?_isSome_of_blockers ?_⟩
  have hheld := h.held e
  rw [Job.refs, hr, List.count_append] at hheld
  have hpos := List.count_pos_iff.mpr he
  simp only [Option.elim_some] at hheld
  omega

end Owned

/-- The new events of a queue and the blocker of a job agree: an event has a
`BLOCKED_JOB` entry for the job, and no other entry, exactly when the job waits
for it.  The new events are those of a job. -/
def Linking (job job' : Job) (new : List Event) : Prop :=
  (∀ ev ∈ new, ev.blocking = if job'.blocker = some ev.id then [.job job.id] else []) ∧
    (job'.blocker = job.blocker ∨ ∃ ev ∈ new, job'.blocker = some ev.id) ∧
    ∀ ev ∈ new, ev.ofJob

/-- What a call on a job keeps. -/
structure Frame (sys : Sys) (job : Job) (sys' : Sys) (job' : Job) : Prop where
  ident : job'.id = job.id
  classId : job'.classId = job.classId
  cls : job'.cls = job.cls
  name : job'.name = job.name
  queue : ∃ new, Extends sys sys' new ∧ Linking job job' new
  blocked : job.blocker.isSome = true → job'.blocker = job.blocker
  balance : ∀ e, sys'.blockers e + job.refs.count e = sys.blockers e + job'.refs.count e
  entries : (∀ b ∈ job.blocking, b.mayWait = true) → ∀ b ∈ job'.blocking, b.mayWait = true
  linked : (∀ root, job.stopOn = some root → root.Linked) →
    ∀ root, job'.stopOn = some root → root.Linked

namespace Frame

variable {sys sys' sys'' : Sys} {job job' job'' : Job}

theorem refl (sys : Sys) (job : Job) : Frame sys job sys job :=
  ⟨rfl, rfl, rfl, rfl, ⟨[], .refl sys, by simp [Linking]⟩, fun _ => rfl, fun _ => rfl,
    fun h => h, fun h => h⟩

theorem owned (h : Frame sys job sys' job') (ho : Owned sys job) : Owned sys' job' := by
  refine ⟨fun e => ?_, h.entries ho.entries, h.linked ho.linked⟩
  have h₁ := h.balance e
  have h₂ := ho.held e
  omega

theorem trans (h : Frame sys job sys' job') (h' : Frame sys' job' sys'' job'') :
    Frame sys job sys'' job'' := by
  refine ⟨h'.ident.trans h.ident, h'.classId.trans h.classId, h'.cls.trans h.cls,
    h'.name.trans h.name, ?_, ?_, ?_, fun he => h'.entries (h.entries he),
    fun hl => h'.linked (h.linked hl)⟩
  · obtain ⟨new, hext, hlink, hor, hnamed⟩ := h.queue
    obtain ⟨new', hext', hlink', hor', hnamed'⟩ := h'.queue
    -- the ids of the two lists of new events do not meet
    have hdisj : ∀ ev ∈ new, ∀ ev' ∈ new', ev.id ≠ ev'.id := by
      intro ev hev ev' hev' heq
      have h₁ : ev.id ∈ new.map Event.id := List.mem_map_of_mem hev
      have h₂ : ev'.id ∈ new'.map Event.id := List.mem_map_of_mem hev'
      rw [hext.ids, List.mem_range'_1, heq] at h₁
      rw [hext'.ids, List.mem_range'_1, hext.lastEvent] at h₂
      have := h₁.2
      have := h₂.1
      omega
    refine ⟨new ++ new', hext.trans hext', ?_, ?_, ?_⟩
    · intro ev hev
      rcases List.mem_append.mp hev with hev | hev
      · rw [hlink ev hev]
        cases hb : job'.blocker with
        | some e =>
          rw [h'.blocked (by simp [hb]), hb]
        | none =>
          rcases hor' with hor' | ⟨ev', hev', hor'⟩
          · rw [hor', hb]
          · have hne := hdisj ev hev ev' hev'
            rw [hor']
            simp [Ne.symm hne]
      · rw [hlink' ev hev, h.ident]
    · rcases hor' with hor' | ⟨ev, hev, hor'⟩
      · rw [hor']
        exact hor.imp id fun ⟨ev, hev, hb⟩ => ⟨ev, List.mem_append_left _ hev, hb⟩
      · exact .inr ⟨ev, List.mem_append_right _ hev, hor'⟩
    · intro ev hev
      exact (List.mem_append.mp hev).elim (hnamed ev) (hnamed' ev)
  · intro hb
    have := h.blocked hb
    rw [h'.blocked (by rw [this]; exact hb), this]
  · intro e
    have h₁ := h.balance e
    have h₂ := h'.balance e
    omega

/-- A call that changes nothing of the queue, and of the job nothing that the
queue depends on. -/
theorem of_same (hid : job'.id = job.id) (hclassId : job'.classId = job.classId)
    (hcls : job'.cls = job.cls) (hname : job'.name = job.name)
    (hblocker : job'.blocker = job.blocker) (hblocking : job'.blocking = job.blocking)
    (hstopOn : job'.stopOn = job.stopOn) : Frame sys job sys job' := by
  refine ⟨hid, hclassId, hcls, hname, ⟨[], .refl sys, by simp [Linking, hblocker]⟩,
    fun _ => hblocker, fun e => ?_, by rw [hblocking]; exact id, by rw [hstopOn]; exact id⟩
  rw [Job.refs, Job.refs, hblocking, hstopOn]

/-- The job as it is, and a longer log. -/
theorem of_extends (hext : Extends sys sys' []) (hb : ∀ e, sys'.blockers e = sys.blockers e) :
    Frame sys job sys' job :=
  ⟨rfl, rfl, rfl, rfl, ⟨[], hext, by simp [Linking]⟩, fun _ => rfl, fun e => by rw [hb],
    id, id⟩

theorem act (sys : Sys) (job : Job) (a : Action) : Frame sys job (sys.act a) job :=
  of_extends (.act sys a) fun _ => rfl

/-- The entries of a job are answered and unblocked. -/
theorem of_finished {failed : Bool} (h : Finished failed sys job.blocking sys') :
    Frame sys job sys' { job with blocking := [] } := by
  refine ⟨rfl, rfl, rfl, rfl, ⟨[], h.queue, by simp [Linking]⟩, fun _ => rfl, fun e => ?_,
    by simp, id⟩
  have := h.blockers e
  simp only [Job.refs, List.count_append, List.filterMap_nil, List.count_nil]
  omega

/-- A new event, which the job waits for in the states that do. -/
theorem of_emitted {e : EventId} (h : Emitted sys job sys' e)
    (hb : job.blocker = none)
    (hj : job' = if job.state = .starting ∨ job.state = .stopping
      then { job with blocker := some e } else job) :
    Frame sys job sys' job' := by
  obtain ⟨ev, hevents, hid, hpending, hzero, hfailed, hblocking⟩ := h.events
  have hbare : ev.bare = ev := by
    cases ev
    simp_all [Event.bare]
  have hext : Extends sys sys' [ev] := by
    refine ⟨by simp [hevents, hbare], ?_, ?_, by simpa using hpending, le_of_eq h.lastPid.symm,
      [], h.log⟩
    · simp [hid, h.fresh]
    · simp [h.lastEvent, h.fresh]
  have hcount : ∀ e', sys'.blockers e' = sys.blockers e' := h.blockers
  have hnamed : ∀ ev' ∈ [ev], ev'.ofJob := by
    intro ev' hev'
    rw [List.mem_singleton.mp hev']
    exact h.named ev hevents
  split at hj
  · rename_i hs
    subst hj
    refine ⟨rfl, rfl, rfl, rfl, ⟨[ev], hext, ?_, .inr ⟨ev, by simp, by simp [hid]⟩, hnamed⟩, ?_,
      fun e => by rw [hcount]; rfl, id, id⟩
    · intro ev' hev'
      rw [List.mem_singleton.mp hev', hblocking, if_pos hs]
      simp [hid]
    · intro h
      simp [hb] at h
  · rename_i hs
    subst hj
    refine ⟨rfl, rfl, rfl, rfl, ⟨[ev], hext, ?_, .inl rfl, hnamed⟩, fun _ => rfl,
      fun e => by rw [hcount], id, id⟩
    intro ev' hev'
    rw [List.mem_singleton.mp hev', hblocking, if_neg hs]
    simp [hb]

theorem of_started (proc : Process) (p : ProcessType) :
    Frame sys job (processStarted sys job p proc).1 (processStarted sys job p proc).2 := by
  refine ⟨rfl, rfl, rfl, rfl, ⟨[], ?_, by simp [Linking, processStarted]⟩, fun _ => rfl,
    fun e => rfl, id, id⟩
  exact ⟨by simp [processStarted, Sys.act], rfl, rfl, by simp, Nat.le_succ _, [_], rfl⟩

end Frame

/-! ## The loop -/

/-- One pass of the loop of `job_change_state`. -/
theorem Enters.frame {x : Host} {sys : Sys} {old : JobState} {job : Job} {pass : Pass}
    (h : Enters x sys old job pass) (hb : job.blocker = none) :
    pass.Holds (fun sys' job' _ => Frame sys job sys' job')
      (fun sys' job' => Frame sys job sys' job') := by
  cases h with
  | starting state goal from_ emit =>
    refine (Frame.of_emitted emit hb (by rw [if_pos (.inl state)])).trans ?_
    exact .of_same rfl rfl rfl rfl rfl rfl rfl
  | spawn p proc => exact .of_started proc p
  | noSpawn => exact .refl sys job
  | wait => exact .refl sys job
  | skip => exact .refl sys job
  | resumed state goal from_ finish =>
    exact (Frame.of_finished finish).trans (.of_same rfl rfl rfl rfl rfl rfl rfl)
  | running state goal from_ emit task finish =>
    refine Frame.trans (Frame.of_emitted emit hb ?_) (Frame.of_finished finish)
    rw [if_neg (by simp [state])]
  | runningTask state goal from_ emit task =>
    exact Frame.of_emitted emit hb (by rw [if_neg (by simp [state])])
  | stopping state from_ emit =>
    exact Frame.of_emitted emit hb (by rw [if_pos (.inr state)])
  | kill state =>
    exact (Frame.act sys job _).trans (.of_same rfl rfl rfl rfl rfl rfl rfl)
  | dead => exact .refl sys job
  | waiting state goal from_ emit finish =>
    refine Frame.trans (Frame.of_emitted emit hb ?_) (Frame.of_finished finish)
    rw [if_neg (by simp [state])]

/-- The program keeps the frame of a job, and it does not fail in the queue. -/
def Framed (sys : Sys) (job : Job) (m : Except Fault (Sys × JobRef)) : Prop :=
  Sat m (fun r => Frame sys job r.1 r.2.job) (fun f => f.ofQueue = false)

/-- The same for a step that cannot free the job. -/
def FramedJob (sys : Sys) (job : Job) (m : Except Fault (Sys × Job)) : Prop :=
  Sat m (fun r => Frame sys job r.1 r.2) (fun f => f.ofQueue = false)

variable {x : Host} {sys sys' : Sys} {job job' : Job}

/-- A program that runs after a call that kept the frame. -/
theorem Framed.after {m : Except Fault (Sys × JobRef)} (h : Framed sys' job' m)
    (hf : Frame sys job sys' job') : Framed sys job m :=
  Sat.imp h fun _ h' => hf.trans h'

theorem Framed.bind {m : Except Fault (Sys × JobRef)}
    {k : Sys × JobRef → Except Fault (Sys × JobRef)} (h : Framed sys job m)
    (hk : ∀ sys' ref, Frame sys job sys' ref.job → Framed sys' ref.job (k (sys', ref))) :
    Framed sys job (m >>= k) := by
  unfold Framed
  rw [sat_bind]
  exact Sat.imp h fun r hr => (hk r.1 r.2 hr).after hr

theorem FramedJob.bind {m : Except Fault (Sys × Job)}
    {k : Sys × Job → Except Fault (Sys × JobRef)} (h : FramedJob sys job m)
    (hk : ∀ sys' job', Frame sys job sys' job' → Framed sys' job' (k (sys', job'))) :
    Framed sys job (m >>= k) := by
  unfold Framed
  rw [sat_bind]
  exact Sat.imp h fun r hr => (hk r.1 r.2 hr).after hr

/-- An access to the job: it fails only where the job has been freed. -/
theorem Framed.get {fn : SourceFn} {ref : JobRef} {k : Job → Except Fault (Sys × JobRef)}
    (hfn : (Fault.useAfterFree fn).ofQueue = false) (hk : Framed sys ref.job (k ref.job)) :
    Framed sys ref.job (ref.get fn >>= k) := by
  cases ref with
  | live job => exact hk
  | freed job => exact hfn

theorem Framed.assert {fn : SourceFn} {b : Bool} {m : Except Fault (Sys × JobRef)}
    (hfn : (Fault.assertFailed fn).ofQueue = false) (hm : Framed sys job m) :
    Framed sys job (nihAssert fn b >>= fun _ => m) :=
  sat_assert (fun _ => hfn) fun _ => hm

theorem jobChangeState_frame {state : JobState} (ho : Owned sys job) :
    Framed sys job (jobChangeState x sys job state) := by
  refine (jobChangeState_rule (I := fun sys' job' _ => Frame sys job sys' job')
    (F := fun sys' job' => Frame sys job sys' job') (E := fun f => f.ofQueue = false)
    ?_ ?_ (.refl sys job)).imp ?_
  · intro sys' job' state pass h _ hb hpass
    have hstate : Frame sys' job' sys' { job' with state := state } :=
      .of_same rfl rfl rfl rfl rfl rfl rfl
    have hkeep := hpass.frame hb
    cases pass with
    | next => exact (h.trans hstate).trans hkeep
    | freed => exact (h.trans hstate).trans hkeep
  · intro sys' job' state f h _ _ hf
    by_contra hc
    exact hf.queue (by simpa using hc) (h.owned ho).releasable
  · rintro ⟨sys', job' | job'⟩ h
    · obtain ⟨_, h, -⟩ := h
      exact h
    · exact h

theorem jobNextState_frame (sys : Sys) (job : Job) :
    Sat (jobNextState job) (fun r => Frame sys job sys r.1) (fun f => f.ofQueue = false) := by
  have hgoal (goal : JobGoal) : Frame sys job sys (job.setGoal goal) :=
    .of_same rfl rfl rfl rfl rfl rfl rfl
  have hsame : Frame sys job sys job := .refl sys job
  unfold jobNextState
  cases job.state <;> cases job.goal <;> first
    | exact hsame
    | exact hgoal _
    | rfl
    | (dsimp only; split <;> exact hsame)

theorem jobAdvance_frame (ho : Owned sys job) : Framed sys job (jobAdvance x sys job) := by
  unfold jobAdvance Framed
  rw [sat_bind]
  refine (jobNextState_frame sys job).imp ?_
  rintro ⟨job', state⟩ h
  exact (jobChangeState_frame (h.owned ho)).after h

theorem setGoal_frame (goal : JobGoal) : Frame sys job sys (job.setGoal goal) :=
  .of_same rfl rfl rfl rfl rfl rfl rfl

theorem jobChangeGoal_frame {goal : JobGoal} (ho : Owned sys job) :
    Framed sys job (jobChangeGoal x sys job goal) := by
  rw [jobChangeGoal_eq]
  split
  · exact (jobAdvance_frame ((setGoal_frame goal).owned ho)).after (setGoal_frame goal)
  · exact setGoal_frame goal

/-! ## Completion -/

theorem jobFinished_frame {failed : Bool} (ho : Owned sys job) :
    FramedJob sys job (jobFinished sys job failed) := by
  refine jobFinished_sat.mono ?_ ?_
  · rintro ⟨sys', _⟩ ⟨rfl, hfin⟩
    exact .of_finished hfin
  · rintro f ⟨-, hrel⟩
    exact absurd ho.releasable hrel

theorem Fails.frame {p : Option ProcessType} {status : Int}
    (h : Fails sys job p status sys' job') : Frame sys job sys' job' := by
  cases h with
  | already failed => exact .refl sys job
  | now failed finish =>
    exact (Frame.of_finished finish).trans (.of_same rfl rfl rfl rfl rfl rfl rfl)

theorem jobFailed_frame {p : Option ProcessType} {status : Int} (ho : Owned sys job) :
    FramedJob sys job (jobFailed sys job p status) :=
  jobFailed_sat.mono (fun _ h => h.frame) fun _ h => absurd ho.releasable h.2

/-! ## The end of a process -/

theorem jobProcessCatchRunaway_frame (x : Host) (sys : Sys) (job : Job) :
    Frame sys job sys (jobProcessCatchRunaway x job).1 := by
  unfold jobProcessCatchRunaway
  split
  · split <;> exact .of_same rfl rfl rfl rfl rfl rfl rfl
  · exact .refl sys job

theorem Terminates.frame {p : ProcessType} {status : Int} {ref : JobRef} {v : Verdict}
    (h : Terminates x sys job status p sys' ref v) (ho : Owned sys job) :
    Frame sys job sys' ref.job := by
  have hcatch := jobProcessCatchRunaway_frame x sys job
  cases h with
  | runaway state goal fail => exact hcatch.trans fail.frame
  | respawnLater waits goal => exact hcatch.trans (setGoal_frame .respawn)
  | respawnSpawned state goal change =>
    exact hcatch.trans ((jobChangeState_frame (hcatch.owned ho)).of_ok change)
  | respawn state waits goal => exact hcatch
  | _ => exact .refl sys job

theorem setPid_frame (p : ProcessType) (pid : Pid) : Frame sys job sys (job.setPid p pid) :=
  .of_same rfl rfl rfl rfl rfl rfl rfl

theorem cancelKill_frame (sys : Sys) (job : Job) : Frame sys job sys job.cancelKill := by
  unfold Job.cancelKill
  split <;> exact .of_same rfl rfl rfl rfl rfl rfl rfl

theorem Ended.frame {p : ProcessType} {status : Int} {failed : Bool}
    (h : Ended sys job p status failed sys' job') : Frame sys job sys' job' := by
  have hend := (cancelKill_frame sys job).trans (setPid_frame p 0)
  cases h with
  | failed fail => exact hend.trans fail.frame
  | ok => exact hend

theorem afterTerminated_frame {p : ProcessType} {status : Int} {v : Verdict}
    (ho : Owned sys job) : Framed sys job (afterTerminated x sys job p status false v) := by
  refine afterTerminated_rule (fun f hf => absurd ho.releasable hf.2) ?_ ?_ ?_
  · intro sys' job' he _ _
    exact he.frame
  · intro sys' job' he _ _
    exact (jobAdvance_frame (he.frame.owned ho)).after he.frame
  · intro sys' job' he _
    refine (jobChangeGoal_frame (he.frame.owned ho)).imp ?_
    rintro ⟨sys₁, _⟩ h j rfl
    have hframe := he.frame.trans h
    exact ⟨fun _ => hframe, fun _ _ => (jobAdvance_frame (hframe.owned ho)).after hframe⟩

theorem modifyData_frame (pid : Pid) (f : JobProcessData → JobProcessData) :
    Frame sys job sys (job.modifyData pid f) :=
  .of_same rfl rfl rfl rfl rfl rfl rfl

theorem jobProcessTerminated_frame {p : ProcessType} {status : Int} {stateOnly : Bool}
    (ho : Owned sys job) (hs : stateOnly = true → job.state.spawning? = true) :
    Framed sys job (jobProcessTerminated x sys job p status stateOnly) := by
  cases hspawn : job.state.spawning? with
  | true =>
    unfold jobProcessTerminated
    rw [if_pos hspawn]
    split
    · rfl
    · rename_i pid _
      unfold Framed
      rw [sat_bind]
      refine (jobNextState_frame sys _).imp ?_
      rintro ⟨job', state⟩ h
      exact ((modifyData_frame pid _).trans h).trans (.of_same rfl rfl rfl rfl rfl rfl rfl)
  | false =>
    obtain rfl : stateOnly = false := by simpa [hspawn] using hs
    refine jobProcessTerminated_rule hspawn ?_ ?_
    · intro f hf
      by_contra hq
      exact hf.2 (by simpa using hq) ho.releasable
    · intro sys' job' v ht
      have hframe : Frame sys job sys' job' := ht.frame ho
      exact (afterTerminated_frame (hframe.owned ho)).after hframe

/-! ## The set-up pipe of a child -/

theorem failAndAdvance_frame {p : ProcessType} (ho : Owned sys job) :
    Framed sys job (failAndAdvance x sys job p) := by
  refine (jobFailed_frame ho).bind fun sys₁ job₁ h₁ => ?_
  refine (jobChangeGoal_frame (h₁.owned ho)).bind fun sys₂ ref h₂ => ?_
  exact .get rfl (jobAdvance_frame (h₂.owned (h₁.owned ho)))

theorem jobChildErrorHandler_frame {p : ProcessType} (ho : Owned sys job) :
    Framed sys job (jobChildErrorHandler x sys job p) := by
  have hpid : Frame sys job sys (job.setPid p 0) := setPid_frame p 0
  have ho' := hpid.owned ho
  unfold jobChildErrorHandler
  refine Framed.after ?_ hpid
  cases p with
  | security =>
    exact (jobFailed_frame ho').bind fun sys₁ job₁ h₁ => jobChangeGoal_frame (h₁.owned ho')
  | preStart | main | postStop => exact failAndAdvance_frame ho'
  | postStart | preStop => exact jobAdvance_frame ho'

theorem jobProcessChildReader_frame {pid : Pid} {permanent : Bool} (ho : Owned sys job) :
    Framed sys job (jobProcessChildReader x sys job pid permanent) := by
  unfold jobProcessChildReader
  split
  · rfl
  split
  · exact .refl sys job
  refine Framed.after ?_ (modifyData_frame pid fun d => { d with script := none })
  refine (jobChildErrorHandler_frame ((modifyData_frame pid _).owned ho)).bind
    fun sys₁ ref h₁ => ?_
  exact Framed.get rfl (modifyData_frame pid _)

theorem jobProcessCloseHandler_frame {pid : Pid} (ho : Owned sys job) :
    Framed sys job (jobProcessCloseHandler x sys job pid) := by
  unfold jobProcessCloseHandler
  split
  · rfl
  split
  · exact .refl sys job
  rename_i data _ _
  have hmod : Frame sys job sys
      (job.modifyData pid fun d => { d with valid := false, script := none }) :=
    modifyData_frame pid _
  have ho' := hmod.owned ho
  have hrest (sys₁ : Sys) (ref : JobRef) (h₁ : Owned sys₁ ref.job) :
      Framed sys₁ ref.job (do
        let job ← ref.get .jobProcessCloseHandler
        if job.state.spawning? then
          jobProcessTerminated x sys₁ job data.process data.status true
        else .ok (sys₁, .live job)) := by
    refine Framed.get rfl ?_
    split
    · rename_i hs
      exact jobProcessTerminated_frame h₁ fun _ => hs
    · exact .refl sys₁ _
  refine Framed.after ?_ hmod
  dsimp only
  split
  · exact (jobAdvance_frame ho').bind fun sys₁ ref h₁ => hrest sys₁ ref (h₁.owned ho')
  · exact hrest sys (.live _) ho'

/-! ## Leaving the spawned state -/

theorem trace_frame (forks : Nat) (trace : TraceState) :
    Frame sys job sys { job with traceForks := forks, traceState := trace } :=
  .of_same rfl rfl rfl rfl rfl rfl rfl

theorem jobProcessStopped_frame {p : ProcessType} (ho : Owned sys job) :
    Framed sys job (jobProcessStopped x sys job p) := by
  have hact := Frame.act sys job (.signalled (job.pid p) 18)
  unfold jobProcessStopped
  split
  · exact .refl sys job
  split
  · exact (jobAdvance_frame (hact.owned ho)).after hact
  · exact .refl sys job

theorem jobProcessTraceNew_frame {p : ProcessType} :
    Framed sys job (jobProcessTraceNew x sys job p) := by
  unfold jobProcessTraceNew
  refine Framed.assert rfl ?_
  split
  · exact .refl sys job
  split
  · exact .refl sys job
  · exact (Frame.act sys job _).trans (trace_frame _ _)

theorem jobProcessTraceNewChild_frame {p : ProcessType} (ho : Owned sys job) :
    Framed sys job (jobProcessTraceNewChild x sys job p) := by
  unfold jobProcessTraceNewChild
  refine Framed.assert rfl ?_
  split
  · exact .refl sys job
  have hforks : Frame sys job sys { job with traceForks := job.traceForks + 1 } :=
    trace_frame _ job.traceState
  dsimp only
  split
  · have hnone := (Frame.act sys job (.detached (job.pid p))).trans
      (trace_frame (job.traceForks + 1) .none)
    exact (jobAdvance_frame (hnone.owned ho)).after hnone
  · exact jobProcessTraceNew_frame.after hforks

theorem jobProcessTraceSignal_frame {p : ProcessType} {signum : Int} :
    Framed sys job (jobProcessTraceSignal sys job p signum) := by
  unfold jobProcessTraceSignal
  split
  · exact .refl sys job
  · exact .act sys job _

/-- The kernel reports a new process. -/
theorem Frame.of_newPid (sys : Sys) (job : Job) :
    Frame sys job { sys with lastPid := sys.lastPid + 1 } job :=
  .of_extends ⟨by simp, rfl, rfl, by simp, Nat.le_succ _, [], rfl⟩ fun _ => rfl

theorem jobProcessTraceFork_frame {p : ProcessType} (ho : Owned sys job) :
    Framed sys job (jobProcessTraceFork x sys job p) := by
  unfold jobProcessTraceFork
  split
  · exact .refl sys job
  split
  · exact .refl sys job
  have hchild : Frame sys job
      ({ sys with lastPid := sys.lastPid + 1 }.act (.detached (job.pid p)))
      { job.setPid p (sys.lastPid + 1) with traceState := .newChild } :=
    ((Frame.of_newPid sys job).trans (.act _ job _)).trans (.of_same rfl rfl rfl rfl rfl rfl rfl)
  dsimp only
  split
  · exact hchild
  · exact (jobProcessTraceNewChild_frame (hchild.owned ho)).after hchild

theorem jobProcessTraceExec_frame {p : ProcessType} (ho : Owned sys job) :
    Framed sys job (jobProcessTraceExec x sys job p) := by
  unfold jobProcessTraceExec
  split
  · exact .refl sys job
  split
  · have hnone := (Frame.act sys job (.detached (job.pid p))).trans
      (trace_frame job.traceForks .none)
    exact (jobAdvance_frame (hnone.owned ho)).after hnone
  · exact .act sys job _

theorem jobProcessReadyfdReader_frame {buf : String} (ho : Owned sys job) :
    Framed sys job (jobProcessReadyfdReader x sys job buf) := by
  unfold jobProcessReadyfdReader
  split
  · exact jobAdvance_frame ho
  · exact .refl sys job

theorem jobProcessHandler_frame {p : ProcessType} {event : ChildEvent} (ho : Owned sys job) :
    Framed sys job (jobProcessHandler x sys job p event) := by
  have hexit := Frame.act sys job (.exited (job.pid p))
  cases event with
  | exited | killed | dumped =>
    exact (jobProcessTerminated_frame (hexit.owned ho) (by simp)).after hexit
  | stopped signal =>
    simp only [jobProcessHandler]
    split
    · exact jobProcessStopped_frame ho
    · exact .refl sys job
  | continued => exact .refl sys job
  | trapped signal =>
    simp only [jobProcessHandler]
    split
    · exact jobProcessTraceNew_frame
    split
    · exact jobProcessTraceNewChild_frame ho
    · exact jobProcessTraceSignal_frame
  | ptraceFork => exact jobProcessTraceFork_frame ho
  | ptraceExec => exact jobProcessTraceExec_frame ho

theorem jobProcessKillTimer_frame : Framed sys job (jobProcessKillTimer sys job) := by
  unfold jobProcessKillTimer
  refine Framed.assert rfl ?_
  split
  · rfl
  · exact Framed.assert rfl ((Frame.act sys job _).trans (.of_same rfl rfl rfl rfl rfl rfl rfl))

end Startup
