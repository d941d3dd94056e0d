import Startup.Job.Present
import Startup.World.Runs

/-!
# The objects that handlers go on to use

A handler accesses the job that it is about after calls that may have freed it, and
`event_finished` the jobs that wait for the event, after others of them have gone on.  In
every run they find these jobs, unless a set-up error comes in when the job is at its end
(`reached_present`).
-/

namespace Startup

open Lib

variable {k : Slack} {x : Host} {sys : Sys} {job : Job} {w : World} {e : EventId}

/-! ## Conditions -/

theorem blockAll_present (es : List EventId) (sys : Sys) : Present (blockAll sys es) := by
  induction es generalizing sys with
  | nil => trivial
  | cons e es ih =>
    have hblock : Present (eventBlock sys e) := by
      unfold eventBlock
      split
      · rfl
      · trivial
    rw [blockAll, List.foldlM_cons]
    exact hblock.bind ih

theorem unblockAll_present (es : List EventId) (sys : Sys) : Present (unblockAll sys es) := by
  induction es generalizing sys with
  | nil => trivial
  | cons e es ih =>
    have hunblock : Present (eventUnblock sys e) := by
      unfold eventUnblock
      split
      · rfl
      · exact .assert (.ok _)
    rw [unblockAll, List.foldlM_cons]
    exact hunblock.bind ih

theorem filteredEvents_present (sys : Sys) (root : EventOperator) {fn : SourceFn}
    (hfn : (Fault.useAfterFree fn).ofHandler = false) : Present (filteredEvents fn sys root) := by
  unfold filteredEvents
  generalize root.filtered = refs
  induction refs with
  | nil => trivial
  | cons ref refs ih =>
    rw [List.mapM_cons]
    refine Present.bind ?_ fun event => ih.bind fun _ => .ok _
    split
    · rfl
    · split
      · exact hfn
      · trivial

theorem handleOperator_present (sys : Sys) (root : EventOperator) (event : Event)
    (env : List String) : Present (handleOperator x sys root event env) :=
  (blockAll_present _ sys).bind fun _ => .ok _

theorem resetOperator_present (sys : Sys) (root : EventOperator) :
    Present (resetOperator sys root) :=
  (unblockAll_present _ sys).bind fun _ => .ok _

theorem copyOperator_present (sys : Sys) (root : EventOperator) :
    Present (copyOperator sys root) :=
  (blockAll_present _ sys).bind fun _ => .ok _

theorem destroyOperator_present (sys : Sys) (root : Option EventOperator) :
    Present (destroyOperator sys root) := by
  cases root with
  | none => trivial
  | some root => exact unblockAll_present ..

theorem eventOperatorEnvironment_present (sys : Sys) (root : EventOperator) (env : List String)
    (key : String) : Present (eventOperatorEnvironment x sys root env key) :=
  (filteredEvents_present sys root (by rfl)).bind fun _ => .ok _

theorem blockOnEvents_present (sys : Sys) (job : Job) (root : EventOperator) (cond : Bool) :
    Present (blockOnEvents sys job root cond) := by
  unfold blockOnEvents
  split
  · refine Present.bind ?_ fun _ => .ok _
    exact (filteredEvents_present sys root (by rfl)).bind fun _ =>
      (blockAll_present _ sys).bind fun _ => .ok _
  · trivial

/-! ## Jobs -/

theorem changeGoalIfOther_present (sys : Sys) (job : Job) (goal : JobGoal) :
    Present (changeGoalIfOther x sys job goal) := by
  rw [changeGoalIfOther_eq]
  exact jobChangeGoal_present ..

theorem handleStopOn_present (sys : Sys) (job : Job) (event : Event) :
    Present (handleStopOn x sys job event) := by
  have htake : ∀ (sys : Sys) (job : Job) root, Present (takeStopEnv x sys job root) := by
    intro sys job root
    unfold takeStopEnv
    split
    · exact (eventOperatorEnvironment_present ..).bind fun _ => jobFinished_present ..
    · trivial
  have hstop : ∀ (sys : Sys) (job : Job) root, Present (stopForEvents x sys job root) := by
    intro sys job root
    refine (htake sys job root).bind fun r => (blockOnEvents_present ..).bind fun r' => ?_
    refine (changeGoalIfOther_present ..).bind fun r'' => Present.bind ?_ fun _ =>
      (resetOperator_present ..).bind fun _ => .ok _
    cases r''.2 with
    | live job => trivial
    | freed job => rfl
  unfold handleStopOn
  split
  · trivial
  · refine (handleOperator_present ..).bind fun r => ?_
    dsimp only
    split
    · exact hstop ..
    · trivial

theorem inductInstance_present (sys : Sys) (job : Job) (root : EventOperator)
    (env : List String) : Present (inductInstance x sys job root env) := by
  have htake : Present (takeStartEnv x sys job root env) := by
    unfold takeStartEnv
    split
    · refine (jobFinished_present ..).bind fun r => Present.bind ?_ fun _ => .ok _
      exact (filteredEvents_present _ root (by rfl)).bind fun _ => .ok _
    · trivial
  exact htake.bind fun _ => (blockOnEvents_present ..).bind fun _ =>
    changeGoalIfOther_present ..

/-! ## Classes -/

theorem getClass_present (w : World) (c : ClassId) {fn : SourceFn}
    (hfn : (Fault.useAfterFree fn).ofHandler = false) : Present (w.getClass fn c) := by
  unfold World.getClass
  split
  · exact hfn
  · trivial

theorem confSelectJob_present (w : World) (name : String) : Present (confSelectJob w name) := by
  have hall : ∀ files, Present (selectFrom w name files) := by
    intro files
    induction files with
    | nil => trivial
    | cons file files ih =>
      unfold selectFrom
      split
      · exact ih
      · refine (getClass_present w _ (by rfl)).bind fun cls => ?_
        split
        · trivial
        · exact ih
  exact hall w.files

theorem jobClassReconsider_present (w : World) (c : ClassId) :
    Present (jobClassReconsider w c) := by
  have hadd : ∀ w best, Present (jobClassAdd w best) := by
    intro w best
    unfold jobClassAdd
    split
    · trivial
    · exact (getClass_present w _ (by rfl)).bind fun _ => .ok _
  refine (getClass_present w c (by rfl)).bind fun cls => ?_
  refine (confSelectJob_present w _).bind fun best => ?_
  split
  · split
    · trivial
    · split
      · exact (hadd ..).bind fun _ => .ok _
      · trivial
  · trivial

theorem freeClass_present (w : World) (cls : ClassState) : Present (freeClass w cls) := by
  have hall : ∀ (jobs : List Job) sys,
      Present (jobs.foldlM (fun sys job => destroyOperator sys job.stopOn) sys) := by
    intro jobs
    induction jobs with
    | nil => exact fun _ => trivial
    | cons job jobs ih =>
      intro sys
      rw [List.foldlM_cons]
      exact (destroyOperator_present ..).bind ih
  exact (destroyOperator_present ..).bind fun _ => (destroyOperator_present ..).bind fun _ =>
    (hall ..).bind fun _ => .ok _

theorem jobDestroy_present (w : World) (job : Job) : Present (jobDestroy w job) := by
  refine (jobClassReconsider_present _ _).bind fun r => ?_
  refine (getClass_present _ _ (by rfl)).bind fun cls => ?_
  refine (destroyOperator_present ..).bind fun sys => ?_
  split
  · exact freeClass_present ..
  · trivial

/-- A call on a job that is there. -/
theorem withJob_present {fn : SourceFn} {f : Sys → Job → Except Fault (Sys × JobRef)} {id : JobId}
    (hget : w.jobs.get? id = none → (Fault.useAfterFree fn).ofHandler = false)
    (hf : ∀ job, w.jobs.get? id = some job → Present (f w.sys job)) :
    Present (withJob w fn id f) := by
  unfold withJob
  split
  · rename_i hnone
    exact hget hnone
  · rename_i job hjob
    refine (hf job hjob).bind fun r => ?_
    rcases r with ⟨sys, job' | job'⟩
    · trivial
    · exact jobDestroy_present ..

theorem findOrNew_present (w : World) (cls : ClassState) (name : String) :
    Present (findOrNew w cls name) := by
  unfold findOrNew jobNewInstance
  split
  · trivial
  · cases cls.stopOn with
    | none => trivial
    | some root =>
      exact (copyOperator_present ..).bind fun _ => .ok _

theorem resetStartOn_present (w : World) (cls : ClassState) : Present (resetStartOn w cls) := by
  unfold resetStartOn
  split
  · trivial
  · exact (resetOperator_present ..).bind fun _ => .ok _

/-! ## Handling an event -/

theorem jobClassInductJob_present (w : World) (c : ClassId) :
    Present (jobClassInductJob x w c) := by
  refine (getClass_present w c (by rfl)).bind fun cls => ?_
  split
  · rfl
  refine (eventOperatorEnvironment_present ..).bind fun env => ?_
  split
  · exact (resetStartOn_present ..).bind fun _ => .ok _
  · refine (findOrNew_present ..).bind fun r => ?_
    refine Present.bind (withJob_present (fun _ => rfl) fun job _ =>
      inductInstance_present ..) fun w => ?_
    exact (getClass_present w c (by rfl)).bind fun _ =>
      (resetStartOn_present ..).bind fun _ => .ok _

theorem offerStartOn_present (w : World) (cls : ClassState) (root : EventOperator)
    (event : Event) : Present (offerStartOn x w cls root event) := by
  refine (handleOperator_present ..).bind fun r => ?_
  dsimp only
  split
  · exact jobClassInductJob_present ..
  · trivial

theorem handleStartOn_present (w : World) (c : ClassId) (event : Event) :
    Present (handleStartOn x w c event) := by
  refine (getClass_present w c (by rfl)).bind fun cls => ?_
  split
  · trivial
  split
  · exact offerStartOn_present ..
  split
  · refine Present.bind ?_ fun _ => .ok _
    unfold awaitCgroupManager
    split
    · trivial
    · exact (handleOperator_present ..).bind fun _ => .ok _
  split
  · exact offerStartOn_present ..
  · exact (resetStartOn_present ..).bind fun _ => offerStartOn_present ..

theorem eventPendingHandleJobs_present (o : HashOrder) (w : World) (event : Event) :
    Present (eventPendingHandleJobs x o w event) := by
  have hinstances : ∀ (ids : List JobId) w, Present (handleInstances x event w ids) := by
    intro ids
    induction ids with
    | nil => exact fun _ => trivial
    | cons id ids ih =>
      intro w
      rw [handleInstances, List.foldlM_cons]
      exact Present.bind (withJob_present (fun _ => rfl) fun job _ => handleStopOn_present ..) ih
  have hclasses : ∀ (cs : List ClassId) w, Present (handleClasses x o event w cs) := by
    intro cs
    induction cs with
    | nil => exact fun _ => trivial
    | cons c cs ih =>
      intro w
      rw [handleClasses]
      refine (hinstances ..).bind fun w => (handleStartOn_present w c event).bind fun r => ?_
      rcases r with ⟨w, _ | _⟩
      · trivial
      · exact ih w
  exact hclasses _ w

/-! ## The end of an event -/

/-- A job that is on the list of the event is there. -/
theorem Ending.job_present {leak : EventId → Nat} {id : JobId} {rest : List Blocked}
    (h : Ending leak e (.job id :: rest) w) : (w.jobs.get? id).isSome = true := by
  obtain ⟨hsound, ⟨ev, hev, hblocking⟩, -⟩ := h
  have hcount := hsound.ties.entries ev (mem_of_event? hev).1 id
  rw [hblocking, List.count_cons_self] at hcount
  have hblocker : blockerOf w.jobs id = some ev.id := by
    by_contra hne
    rw [if_neg hne] at hcount
    exact absurd hcount (by simp)
  obtain ⟨job, hget, -⟩ := Option.bind_eq_some_iff.mp hblocker
  exact Option.isSome_of_mem hget

theorem finishEntry_present {leak : EventId → Nat} {entry : Blocked} {rest : List Blocked}
    (h : Ending leak e (entry :: rest) w) : Present (finishEntry x e w entry) := by
  cases entry with
  | job id =>
    refine Present.bind (withJob_present (fun hnone => ?_) fun job _ => jobAdvance_present ..)
      fun _ => .ok _
    have hthere := h.job_present
    rw [show w.jobs.get? id = none from hnone] at hthere
    cases hthere
  | emitMethod m =>
    obtain ⟨ev, hev, -⟩ := h.event
    dsimp only [finishEntry]
    rw [hev]
    trivial
  | _ => rfl

theorem eventFinished_present {leak : EventId → Nat} {ev : Event}
    (h : SoundWith ⟨leak, some e, 0⟩ w) (hev : w.sys.event? e = some ev)
    (hzero : w.sys.blockers e = 0) : Present (eventFinished x w e) := by
  have hall : ∀ (entries : List Blocked) w, Ending leak e entries w →
      Sat (entries.foldlM (finishEntry x e) w) (Ending leak e []) (fun f => f.ofHandler = false) := by
    intro entries
    induction entries with
    | nil => exact fun w h => h
    | cons entry rest ih =>
      intro w h
      rw [List.foldlM_cons, sat_bind]
      refine (Sat.and (finishEntry_present h) (finishEntry_sat h)).mono ?_ fun _ hf => hf.1
      rintro w₁ ⟨-, h₁, -⟩
      exact ih w₁ h₁
  unfold eventFinished
  rw [hev]
  refine .assert ?_
  rw [Present, sat_bind]
  refine (hall ev.blocking w ⟨h, ⟨ev, hev, rfl⟩, hzero⟩).imp fun w₁ h₁ => ?_
  obtain ⟨ev₁, hev₁, -⟩ := h₁.event
  rw [hev₁]
  trivial

theorem pollHandled_present {leak : EventId → Nat} {ev : Event} (h : WorldSound leak w)
    (hev : w.sys.event? e = some ev) (hprogress : ev.progress = .handling) :
    Present (pollHandled x w e) := by
  unfold pollHandled
  rw [hev]
  dsimp only
  split
  · trivial
  · rename_i hstay
    have hzero : ev.blockers = 0 := by
      by_contra hne
      exact hstay ⟨hprogress, hne⟩
    obtain ⟨hfin, hfound, hblockers⟩ := h.finish hev hzero
    exact eventFinished_present hfin hfound hblockers

theorem eventPollEvent_present {leak : EventId → Nat} (h : WorldSound leak w) (o : HashOrder) :
    Present (eventPollEvent x o w e) := by
  unfold eventPollEvent
  cases hev : w.sys.event? e with
  | none => trivial
  | some ev =>
    dsimp only
    split
    · obtain ⟨hhandling, hfound, hqueued⟩ := h.handle hev
      rw [Present, sat_bind]
      refine (Sat.and (eventPendingHandleJobs_present o _ ev)
        (eventPendingHandleJobs_holds hhandling hqueued)).mono ?_ fun _ hf => hf.1
      rintro w₁ ⟨-, h₁, -⟩
      obtain ⟨new, hext, -⟩ := h₁.queue
      obtain ⟨ev₁, hev₁, hbare⟩ := hext.event? h₁.sound.ties.unique hfound
      have hprogress : ev₁.bare.progress = .handling := by rw [hbare]; rfl
      exact pollHandled_present h₁.sound hev₁ hprogress
    · rename_i hne
      exact pollHandled_present h hev (h.handling hev hne)

/-! ## Every run -/

/-- The steps with which the handlers of notifications and `event_finished` are called. -/
def WorldInput.notifies : WorldInput → Prop
  | .poll _ _ => True
  | .job _ i => i.notifies
  | _ => False

/-- No set-up error comes in when the job is at its end. -/
def NoErrorAtEnd (_ : Host) (w : World) : WorldInput → Prop
  | .job id i => ∀ job, w.jobs.get? id = some job → ¬ errorAtEnd job i
  | _ => True

/-- In every run, the handlers and `event_finished` find the jobs that they go on to
use, unless a set-up error comes in when the job is at its end; and `job_change_goal` never
frees its job. -/
theorem reached_present {i : WorldInput} (h : WorldReached NoErrorAtEnd w)
    (hi : WorldEnabled x w i) (hnotifies : i.notifies) (hn : NoErrorAtEnd x w i) :
    (∀ f, worldStep x w i = .error f → f.ofHandler = false) ∧
      ∀ job ∈ w.jobs.items, ∀ goal r, jobChangeGoal x w.sys job goal = .ok r →
        ∃ job', r.2 = .live job' := by
  obtain ⟨leak, hs⟩ := reached_worldSound h
  constructor
  · have hstep : Present (worldStep x w i) := by
      cases i with
      | poll e order => exact eventPollEvent_present hs order
      | job id input =>
        obtain ⟨-, job, hget, henabled⟩ := hi
        show Present (withJob w .eventPending id fun sys job => jobStep x sys job input)
        refine withJob_present (fun _ => rfl) fun job' hget' => ?_
        have heq : job = job' := Option.some.inj (hget.symm.trans hget')
        subst heq
        exact jobStep_present (hs.settled job (Store.mem_of_get? hget)) henabled hnotifies
          (hn job hget)
      | _ => exact hnotifies.elim
    exact (sat_iff.mp hstep).2
  · rintro job - goal ⟨sys, job' | job'⟩ hr
    · exact ⟨job', rfl⟩
    · exact ((jobChangeGoal_live : Sat _ _ _).of_ok hr).elim

/-- A file whose class has a `post-stop` process only. -/
def postStopParsed : Parsed where
  ok := true
  config := plainClass [.postStop]

/-- A set-up error of the main process comes in when it is about to run. -/
theorem reached_present_spawned :
    ∃ w, WorldReached NoErrorAtEnd w ∧
      (∀ f, worldStep plainHost w (.job 1 (.childError 1 true)) = .error f →
        f.ofHandler = false) ∧
      ∀ job ∈ w.jobs.items, ∀ goal r, jobChangeGoal plainHost w.sys job goal = .ok r →
        ∃ job', r.2 = .live job' := by
  have h₁ := (reached_newWorld NoErrorAtEnd).next
    (.load 1 "/two/a.conf" (some plainParsed) none) ⟨trivial, trivial⟩ rfl
  have h₂ := h₁.next (.classStart 1 7 [] false) ⟨⟨_, .head _, rfl⟩, trivial⟩ rfl
  have h₃ := h₂.next (.poll 1 listOrder) ⟨trivial, trivial⟩ rfl
  refine ⟨_, h₃, reached_present h₃ ⟨trivial, _, rfl, rfl⟩ trivial ?_⟩
  rintro job ⟨⟩ ⟨-, d, -, -, -, hend, -⟩
  exact absurd hend (by decide)

/-- The `post-stop` process of a job could not be set up: the job is freed, and the reader
of the pipe goes on to use it. -/
theorem postStop_error_freed :
    ∃ w, WorldReached Anything w ∧
      WorldEnabled plainHost w (.job 1 (.childError 1 true)) ∧
      worldStep plainHost w (.job 1 (.childError 1 true)) =
        .error (.useAfterFree .jobProcessChildReader) := by
  have h₁ := (reached_newWorld Anything).next
    (.load 1 "/two/a.conf" (some postStopParsed) none) ⟨trivial, trivial⟩ rfl
  have h₂ := h₁.next (.classStart 1 7 [] false) ⟨⟨_, .head _, rfl⟩, trivial⟩ rfl
  have h₃ := h₂.next (.poll 1 listOrder) ⟨trivial, trivial⟩ rfl
  have h₄ := h₃.next (.job 1 (.stop 8 false)) ⟨⟨trivial, _, rfl, trivial⟩, trivial⟩ rfl
  have h₅ := h₄.next (.poll 3 listOrder) ⟨trivial, trivial⟩ rfl
  exact ⟨_, h₅, ⟨trivial, _, rfl, rfl⟩, rfl⟩

end Startup
