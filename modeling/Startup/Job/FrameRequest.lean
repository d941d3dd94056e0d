import Startup.Job.Frame

/-!
# What requests and events do to the rest of the system

The functions of `Startup.Job.Request` keep the frame of a job
(`Startup.Job.Frame`).  They are where a job takes new blocks: the events that
start or stop it wait for it, and its `stop on` condition holds the events
that it has matched.
-/

namespace Startup

open Lib

variable {x : Host} {sys sys' : Sys} {job job' : Job}

/-- A step that cannot free the job, followed by another one. -/
theorem FramedJob.seq {m : Except Fault (Sys × Job)} {k : Sys × Job → Except Fault (Sys × Job)}
    (h : FramedJob sys job m)
    (hk : ∀ sys' job', Frame sys job sys' job' → FramedJob sys' job' (k (sys', job'))) :
    FramedJob sys job (m >>= k) := by
  unfold FramedJob
  rw [sat_bind]
  exact Sat.imp h fun r hr => Sat.imp (hk r.1 r.2 hr) fun _ h' => hr.trans h'

/-! ## Methods -/

/-- A request that waits for a job holds no event. -/
def Blocked.isRequest (b : Blocked) : Prop :=
  b.message?.isSome = true ∧ b.event? = none

theorem addRequest_frame {entry : Blocked} (he : entry.isRequest) :
    Frame sys job sys { job with blocking := job.blocking ++ [entry] } := by
  refine ⟨rfl, rfl, rfl, rfl, ⟨[], .refl sys, by simp [Linking]⟩, fun _ => rfl, fun e => ?_, ?_,
    id⟩
  · simp [Job.refs, List.filterMap_append, he.2]
  · intro h b hb
    rcases List.mem_append.mp hb with hb | hb
    · exact h b hb
    · rw [List.mem_singleton.mp hb, Blocked.mayWait, he.1, Bool.or_true]

theorem replaceBlocking_frame {entry : Blocked} {wait : Bool} (ho : Owned sys job)
    (he : entry.isRequest) : FramedJob sys job (replaceBlocking sys job entry wait) := by
  refine (jobFinished_frame ho).seq fun sys₁ job₁ h₁ => ?_
  dsimp only
  split
  · exact addRequest_frame he
  · exact .refl sys₁ job₁

theorem replyUnlessWait_frame (message : MessageId) (wait : Bool) :
    Frame sys job (replyUnlessWait sys message wait) job := by
  unfold replyUnlessWait
  split
  · exact .refl sys job
  · exact .act sys job _

theorem changeGoalFor_frame {entry : Blocked} {message : MessageId} {wait : Bool}
    {goal : JobGoal} (ho : Owned sys job) (he : entry.isRequest) :
    Framed sys job (changeGoalFor x sys job entry message wait goal) := by
  refine (replaceBlocking_frame ho he).bind fun sys₁ job₁ h₁ => ?_
  exact (jobChangeGoal_frame (h₁.owned ho)).bind fun sys₂ ref h₂ =>
    replyUnlessWait_frame message wait

theorem restartFor_frame {entry : Blocked} {message : MessageId} {wait : Bool}
    (ho : Owned sys job) (he : entry.isRequest) :
    Framed sys job (restartFor x sys job entry message wait) := by
  refine (replaceBlocking_frame ho he).bind fun sys₁ job₁ h₁ => ?_
  have ho₁ := h₁.owned ho
  refine (jobChangeGoal_frame ho₁).bind fun sys₂ ref h₂ => ?_
  refine Framed.get rfl ?_
  exact (jobChangeGoal_frame (h₂.owned ho₁)).bind fun sys₃ ref h₃ =>
    replyUnlessWait_frame message wait

theorem refuse_frame (message : MessageId) : Framed sys job (refuse sys job message) :=
  Frame.act sys job _

/-- The environment that comes with a request is not part of the frame. -/
private theorem setEnv_frame (startEnv stopEnv : Option (List String)) :
    Frame sys job sys { job with startEnv := startEnv, stopEnv := stopEnv } :=
  .of_same rfl rfl rfl rfl rfl rfl rfl

theorem jobStart_frame {message : MessageId} {wait : Bool} (ho : Owned sys job) :
    Framed sys job (jobStart x sys job message wait) := by
  have henv : Frame sys job sys { job with startEnv := none } := setEnv_frame none job.stopEnv
  unfold jobStart
  split
  · exact refuse_frame message
  split
  · exact refuse_frame message
  · exact (changeGoalFor_frame (henv.owned ho) ⟨rfl, rfl⟩).after henv

theorem jobStop_frame {message : MessageId} {wait : Bool} (ho : Owned sys job) :
    Framed sys job (jobStop x sys job message wait) := by
  have henv : Frame sys job sys { job with stopEnv := none } := setEnv_frame job.startEnv none
  unfold jobStop
  split
  · exact refuse_frame message
  · exact (changeGoalFor_frame (henv.owned ho) ⟨rfl, rfl⟩).after henv

theorem jobRestart_frame {message : MessageId} {wait : Bool} (ho : Owned sys job) :
    Framed sys job (jobRestart x sys job message wait) := by
  have henv : Frame sys job sys { job with startEnv := none, stopEnv := none } :=
    setEnv_frame none none
  unfold jobRestart
  split
  · exact refuse_frame message
  · exact (restartFor_frame (henv.owned ho) ⟨rfl, rfl⟩).after henv

/-- The reply of a class method has the path of the job. -/
private theorem replyPath_frame {m : Except Fault (Sys × JobRef)} {fn : SourceFn} {wait : Bool}
    (h : Framed sys job m) (hfn : (Fault.useAfterFree fn).ofQueue = false) :
    Framed sys job (do
      let (sys, ref) ← m
      if wait then .ok (sys, ref)
      else
        let job ← ref.get fn
        .ok (sys, .live job)) := by
  refine h.bind fun sys₁ ref h₁ => ?_
  dsimp only
  split
  · exact .refl sys₁ _
  · exact Framed.get hfn (.refl sys₁ _)

theorem jobClassStartInstance_frame {env : List String} {message : MessageId} {wait : Bool}
    (ho : Owned sys job) : Framed sys job (jobClassStartInstance x sys job env message wait) := by
  have henv : Frame sys job sys { job with startEnv := some env } :=
    setEnv_frame (some env) job.stopEnv
  unfold jobClassStartInstance
  split
  · exact refuse_frame message
  · exact replyPath_frame ((changeGoalFor_frame (henv.owned ho) ⟨rfl, rfl⟩).after henv) rfl

theorem jobClassStopInstance_frame {env : List String} {message : MessageId} {wait : Bool}
    (ho : Owned sys job) : Framed sys job (jobClassStopInstance x sys job env message wait) := by
  have henv : Frame sys job sys { job with stopEnv := some env } :=
    setEnv_frame job.startEnv (some env)
  unfold jobClassStopInstance
  split
  · exact refuse_frame message
  · exact (changeGoalFor_frame (henv.owned ho) ⟨rfl, rfl⟩).after henv

theorem jobClassRestartInstance_frame {env : List String} {message : MessageId} {wait : Bool}
    (ho : Owned sys job) :
    Framed sys job (jobClassRestartInstance x sys job env message wait) := by
  have henv : Frame sys job sys { job with startEnv := some env, stopEnv := none } :=
    setEnv_frame (some env) none
  unfold jobClassRestartInstance
  split
  · exact refuse_frame message
  · exact replyPath_frame ((restartFor_frame (henv.owned ho) ⟨rfl, rfl⟩).after henv) rfl

/-! ## Events -/

/-- The events of a condition wait for the job, which holds as many blocks
more. -/
theorem blockOnEvents_frame {root : EventOperator} {cond : Bool} (hg : Grounded sys root) :
    FramedJob sys job (blockOnEvents sys job root cond) := by
  unfold blockOnEvents
  split
  · unfold FramedJob
    rw [sat_bind]
    refine (eventOperatorEvents_sat hg).mono ?_ fun _ h => h.elim
    rintro ⟨sys₁, blocked⟩ ⟨htouch, es, rfl, hcount⟩
    have hevents : (es.map Blocked.event).filterMap Blocked.event? = es := by
      rw [List.filterMap_map]
      simp [Function.comp_def, Blocked.event?]
    refine ⟨rfl, rfl, rfl, rfl, ⟨[], htouch.toExtends, by simp [Linking]⟩, fun _ => rfl,
      fun e => ?_, ?_, id⟩
    · have := hcount e
      simp only [Job.refs, List.filterMap_append, List.count_append, hevents] at this ⊢
      omega
    · intro h b hb
      rcases List.mem_append.mp hb with hb | hb
      · exact h b hb
      · obtain ⟨e, -, rfl⟩ := List.mem_map.mp hb
        rfl
  · exact .refl sys job

theorem takeStopEnv_frame {root : EventOperator} (ho : Owned sys job) (hg : Grounded sys root) :
    FramedJob sys job (takeStopEnv x sys job root) := by
  unfold takeStopEnv
  split
  · unfold FramedJob
    rw [sat_bind]
    refine (eventOperatorEnvironment_sat hg).mono (fun env _ => ?_) fun _ h => h.elim
    have henv : Frame sys job sys { job with stopEnv := some env } :=
      setEnv_frame job.startEnv (some env)
    exact (jobFinished_frame (henv.owned ho)).imp fun _ h => henv.trans h
  · exact .refl sys job

theorem takeStartEnv_frame {root : EventOperator} {env : List String} (ho : Owned sys job)
    (hg : Grounded sys root) : FramedJob sys job (takeStartEnv x sys job root env) := by
  unfold takeStartEnv
  split
  · have henv : Frame sys job sys { job with startEnv := some env } :=
      setEnv_frame (some env) job.stopEnv
    unfold FramedJob
    rw [sat_bind]
    refine (jobFinished_frame (henv.owned ho)).imp fun r hr => ?_
    have hframe := henv.trans hr
    obtain ⟨new, hext, -⟩ := hframe.queue
    rw [sat_bind]
    refine (eventOperatorFds_sat (hg.mono hext)).mono (fun fds _ => ?_) fun _ h => h.elim
    exact hframe.trans (.of_same rfl rfl rfl rfl rfl rfl rfl)
  · exact .refl sys job

/-! ### The `stop on` condition of a job -/

/-- One pass of the loop leaves the condition alone. -/
theorem Enters.stopOn {old : JobState} {pass : Pass} (h : Enters x sys old job pass) :
    pass.Holds (fun _ job' _ => job'.stopOn = job.stopOn)
      (fun _ job' => job'.stopOn = job.stopOn) := by
  cases h <;> rfl

theorem jobChangeState_stopOn {state : JobState} :
    Sat (jobChangeState x sys job state) (fun r => r.2.job.stopOn = job.stopOn)
      (fun _ => True) := by
  refine (jobChangeState_rule (I := fun _ job' _ => job'.stopOn = job.stopOn)
    (F := fun _ job' => job'.stopOn = job.stopOn) ?_ (fun _ _ _ _ _ _ _ _ => trivial) rfl).imp ?_
  · intro sys' job' state pass h _ _ hpass
    have hkeep := hpass.stopOn
    cases pass with
    | next => exact hkeep.trans h
    | freed => exact hkeep.trans h
  · rintro ⟨sys', job' | job'⟩ h
    · obtain ⟨_, h, -⟩ := h
      exact h
    · exact h

theorem jobNextState_stopOn (job : Job) :
    Sat (jobNextState job) (fun r => r.1.stopOn = job.stopOn) (fun _ => True) := by
  unfold jobNextState
  cases job.state <;> cases job.goal <;> first
    | rfl
    | trivial
    | (dsimp only; split <;> rfl)

theorem jobChangeGoal_stopOn {goal : JobGoal} :
    Sat (jobChangeGoal x sys job goal) (fun r => r.2.job.stopOn = job.stopOn)
      (fun _ => True) := by
  rw [jobChangeGoal_eq]
  split
  · unfold jobAdvance
    rw [sat_bind]
    refine (jobNextState_stopOn _).imp fun r hr => ?_
    exact jobChangeState_stopOn.imp fun r' hr' => hr'.trans hr
  · rfl

theorem takeStopEnv_stopOn {root : EventOperator} :
    Sat (takeStopEnv x sys job root) (fun r => r.2.stopOn = job.stopOn) (fun _ => True) := by
  unfold takeStopEnv
  split
  · rw [sat_bind, sat_iff]
    refine ⟨fun env _ => ?_, fun _ _ => trivial⟩
    refine jobFinished_sat.mono ?_ fun _ _ => trivial
    rintro r ⟨hr, -⟩
    rw [hr]
  · rfl

theorem blockOnEvents_stopOn {root : EventOperator} {cond : Bool} :
    Sat (blockOnEvents sys job root cond) (fun r => r.2.stopOn = job.stopOn)
      (fun _ => True) := by
  unfold blockOnEvents
  split
  · rw [sat_bind, sat_iff]
    exact ⟨fun _ _ => rfl, fun _ _ => trivial⟩
  · rfl

/-- The condition of a job is reset: the job gives back what the condition
holds. -/
theorem resetStopOn_frame {root : EventOperator} (ho : Owned sys job)
    (hr : job.stopOn = some root) :
    Sat (resetOperator sys root)
      (fun r => Frame sys job r.1 { job with stopOn := some r.2 }) (fun _ => False) := by
  have hheld : ∀ e, root.refs.count e ≤ sys.blockers e := by
    intro e
    have := ho.held e
    rw [Job.refs, hr, List.count_append] at this
    simp only [Option.elim_some] at this
    omega
  refine (resetOperator_sat hheld).imp ?_
  rintro ⟨sys₁, _⟩ ⟨htouch, rfl, hcount⟩
  refine ⟨rfl, rfl, rfl, rfl, ⟨[], htouch.toExtends, by simp [Linking]⟩, fun _ => rfl,
    fun e => ?_, id, ?_⟩
  · have := hcount e
    simp only [Job.refs, hr, List.count_append, Option.elim_some, EventOperator.refs_reset,
      List.count_nil] at this ⊢
    omega
  · rintro - root' ⟨⟩
    exact EventOperator.linked_reset root

theorem stopForEvents_frame {root : EventOperator} (ho : Owned sys job)
    (hr : job.stopOn = some root) : Framed sys job (stopForEvents x sys job root) := by
  have hg := ho.grounded hr
  unfold stopForEvents Framed
  rw [sat_bind]
  refine ((takeStopEnv_frame ho hg).and takeStopEnv_stopOn).mono ?_ fun _ h => h.1
  rintro ⟨sys₁, job₁⟩ ⟨h₁, hs₁⟩
  obtain ⟨new, hext, -⟩ := h₁.queue
  rw [sat_bind]
  refine ((blockOnEvents_frame (hg.mono hext)).and blockOnEvents_stopOn).mono ?_ fun _ h => h.1
  rintro ⟨sys₂, job₂⟩ ⟨h₂, hs₂⟩
  dsimp only at h₂ hs₂ ⊢
  have ho₂ := h₂.owned (h₁.owned ho)
  rw [changeGoalIfOther_eq, sat_bind]
  refine ((jobChangeGoal_frame ho₂).and jobChangeGoal_stopOn).mono ?_ fun _ h => h.1
  rintro ⟨sys₃, ref⟩ ⟨h₃, hs₃⟩
  cases ref with
  | freed job₃ => rfl
  | live job₃ =>
    have hroot : job₃.stopOn = some root := hs₃.trans (hs₂.trans (hs₁.trans hr))
    simp only [JobRef.get_live, sat_bind, sat_ok]
    refine (resetStopOn_frame (h₃.owned ho₂) hroot).mono (fun r h₄ => ?_) fun _ h => h.elim
    exact ((h₁.trans h₂).trans h₃).trans h₄

theorem handleStopOn_frame {event : Event} (ho : Owned sys job)
    (he : (sys.event? event.id).isSome = true) :
    Framed sys job (handleStopOn x sys job event) := by
  unfold handleStopOn Framed
  split
  · exact .refl sys job
  · rename_i root hroot
    rw [sat_bind]
    refine (handleOperator_sat (ho.linked root hroot) he).mono ?_ fun _ h => h.elim
    rintro ⟨sys₁, root₁, matched⟩ ⟨htouch, hlinked, hmem, hcount⟩
    have hroot₁ : Frame sys job sys₁ { job with stopOn := some root₁ } := by
      refine ⟨rfl, rfl, rfl, rfl, ⟨[], htouch.toExtends, by simp [Linking]⟩, fun _ => rfl,
        fun e => ?_, id, ?_⟩
      · have := hcount e
        simp only [Job.refs, hroot, List.count_append, Option.elim_some] at this ⊢
        omega
      · rintro - root' ⟨⟩
        exact hlinked
    have hframe := hroot₁.trans (.act sys₁ _ (.offeredStop event.id job.id))
    dsimp only
    split
    · have hstop := hframe.trans (.act _ _ (.stoppedFor event.id job.id))
      exact (stopForEvents_frame (hstop.owned ho) rfl).after hstop
    · exact hframe

/-! ### The instance that an event starts -/

theorem inductInstance_frame {root : EventOperator} {env : List String} (ho : Owned sys job)
    (hg : Grounded sys root) : Framed sys job (inductInstance x sys job root env) := by
  unfold inductInstance
  refine (takeStartEnv_frame ho hg).bind fun sys₁ job₁ h₁ => ?_
  obtain ⟨new, hext, -⟩ := h₁.queue
  refine (blockOnEvents_frame (hg.mono hext)).bind fun sys₂ job₂ h₂ => ?_
  dsimp only
  rw [changeGoalIfOther_eq]
  exact jobChangeGoal_frame (h₂.owned (h₁.owned ho))

/-- The event that a job waits for has ended, and the job no longer waits
for it. -/
theorem blockerFinished_frame (ho : Owned sys job) :
    Framed sys { job with blocker := none } (blockerFinished x sys job) :=
  jobAdvance_frame ⟨ho.held, ho.entries, ho.linked⟩

end Startup
