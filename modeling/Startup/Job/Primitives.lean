import Startup.Event.Accounts
import Startup.Job.Request

/-!
# What a pass of `job_change_state` is made of

* `Fault.ofStateMachine`, `Fault.ofQueue`: the faults that the results of this
  development are about.
* `Emitted`: what `job_emit_event` does to the queue.
* `Finished`: what `job_finished` does to the queue and the log; it can only
  fail where the job does not hold the blocks that it gives back
  (`Releasable`).
* `Fails`: what `job_failed` does.
* `SameCore`: the fields that the state machine reads.
-/

namespace Startup

open Lib

/-! ## Faults -/

/-- The assertions of `job_change_state`, `job_next_state` and
`job_process_terminated`. -/
def Fault.ofStateMachine : Fault → Bool
  | .assertFailed .jobChangeState => true
  | .assertFailed .jobNextState => true
  | .assertFailed .jobProcessTerminated => true
  | _ => false

/-- The faults of a block that is given back without being held, and of an
event that is no longer there. -/
def Fault.ofQueue : Fault → Bool
  | .assertFailed .eventUnblock => true
  | .assertFailed .jobFinished => true
  | .assertFailed .eventOperatorEnvironment => true
  | .assertFailed .eventOperatorFds => true
  | .assertFailed .eventOperatorEvents => true
  | .useAfterFree .eventBlock => true
  | .useAfterFree .eventUnblock => true
  | .useAfterFree .eventOperatorEnvironment => true
  | .useAfterFree .eventOperatorFds => true
  | .useAfterFree .eventOperatorEvents => true
  | .outOfFuel => true
  | _ => false

/-- The faults of the queue are no assertions of the state machine. -/
theorem Fault.quiet_of_ofQueue {f : Fault} (h : f.ofQueue = true) : f.ofStateMachine = false := by
  unfold Fault.ofQueue at h
  unfold Fault.ofStateMachine
  split <;> simp at h ⊢

section Quiet

variable {sys : Sys} {root : EventOperator}

theorem eventBlock_ofQueue (e : EventId) :
    Sat (eventBlock sys e) (fun _ => True) (fun f => f.ofQueue = true) := by
  unfold eventBlock
  split
  · rfl
  · trivial

theorem eventUnblock_ofQueue (e : EventId) :
    Sat (eventUnblock sys e) (fun _ => True) (fun f => f.ofQueue = true) := by
  unfold eventUnblock
  split
  · rfl
  · exact sat_assert (fun _ => rfl) fun _ => trivial

theorem blockAll_ofQueue (es : List EventId) :
    Sat (blockAll sys es) (fun _ => True) (fun f => f.ofQueue = true) := by
  induction es generalizing sys with
  | nil => trivial
  | cons e es ih =>
    rw [blockAll, List.foldlM_cons, sat_bind]
    exact (eventBlock_ofQueue e).imp fun _ _ => ih

theorem unblockAll_ofQueue (es : List EventId) :
    Sat (unblockAll sys es) (fun _ => True) (fun f => f.ofQueue = true) := by
  induction es generalizing sys with
  | nil => trivial
  | cons e es ih =>
    rw [unblockAll, List.foldlM_cons, sat_bind]
    exact (eventUnblock_ofQueue e).imp fun _ _ => ih

theorem handleOperator_ofQueue {x : Host} {event : Event} {env : List String} :
    Sat (handleOperator x sys root event env) (fun _ => True) (fun f => f.ofQueue = true) := by
  unfold handleOperator
  dsimp only
  rw [sat_bind]
  exact (blockAll_ofQueue _).imp fun _ _ => trivial

theorem resetOperator_ofQueue :
    Sat (resetOperator sys root) (fun _ => True) (fun f => f.ofQueue = true) := by
  unfold resetOperator
  rw [sat_bind]
  exact (unblockAll_ofQueue _).imp fun _ _ => trivial

/-- An iteration over a condition fails in the function that makes it. -/
theorem filteredEvents_fails {fn : SourceFn} :
    Sat (filteredEvents fn sys root) (fun _ => True)
      (fun f => f = .assertFailed fn ∨ f = .useAfterFree fn) := by
  unfold filteredEvents
  generalize root.filtered = refs
  induction refs with
  | nil => trivial
  | cons ref refs ih =>
    rw [List.mapM_cons, sat_bind]
    cases ref with
    | none => exact .inl rfl
    | some e =>
      dsimp only
      split
      · exact .inr rfl
      · rw [sat_ok, sat_bind]
        exact ih.imp fun _ _ => trivial

theorem eventOperatorEnvironment_ofQueue {x : Host} {env : List String} {key : String} :
    Sat (eventOperatorEnvironment x sys root env key) (fun _ => True)
      (fun f => f.ofQueue = true) := by
  unfold eventOperatorEnvironment
  rw [sat_bind]
  exact filteredEvents_fails.mono (fun _ _ => trivial) fun f hf => by
    rcases hf with rfl | rfl <;> rfl

theorem eventOperatorFds_ofQueue {x : Host} {env : List String} {key : String} :
    Sat (eventOperatorFds x sys root env key) (fun _ => True) (fun f => f.ofQueue = true) := by
  unfold eventOperatorFds
  rw [sat_bind]
  exact filteredEvents_fails.mono (fun _ _ => trivial) fun f hf => by
    rcases hf with rfl | rfl <;> rfl

theorem eventOperatorEvents_ofQueue :
    Sat (eventOperatorEvents sys root) (fun _ => True) (fun f => f.ofQueue = true) := by
  unfold eventOperatorEvents
  rw [sat_bind]
  refine filteredEvents_fails.mono (fun events _ => ?_) fun f hf => by
    rcases hf with rfl | rfl <;> rfl
  rw [sat_bind]
  exact (blockAll_ofQueue _).imp fun _ _ => trivial

theorem handleOperator_quiet {x : Host} {event : Event} {env : List String} :
    Sat (handleOperator x sys root event env) (fun _ => True)
      (fun f => f.ofStateMachine = false) :=
  handleOperator_ofQueue.mono (fun _ h => h) fun _ => Fault.quiet_of_ofQueue

theorem resetOperator_quiet :
    Sat (resetOperator sys root) (fun _ => True) (fun f => f.ofStateMachine = false) :=
  resetOperator_ofQueue.mono (fun _ h => h) fun _ => Fault.quiet_of_ofQueue

theorem eventOperatorEnvironment_quiet {x : Host} {env : List String} {key : String} :
    Sat (eventOperatorEnvironment x sys root env key) (fun _ => True)
      (fun f => f.ofStateMachine = false) :=
  eventOperatorEnvironment_ofQueue.mono (fun _ h => h) fun _ => Fault.quiet_of_ofQueue

theorem eventOperatorFds_quiet {x : Host} {env : List String} {key : String} :
    Sat (eventOperatorFds x sys root env key) (fun _ => True)
      (fun f => f.ofStateMachine = false) :=
  eventOperatorFds_ofQueue.mono (fun _ h => h) fun _ => Fault.quiet_of_ofQueue

theorem eventOperatorEvents_quiet :
    Sat (eventOperatorEvents sys root) (fun _ => True) (fun f => f.ofStateMachine = false) :=
  eventOperatorEvents_ofQueue.mono (fun _ h => h) fun _ => Fault.quiet_of_ofQueue

end Quiet

/-! ## Events -/

/-- The event has the name of one that `job_emit_event` emits. -/
def Event.ofJob (ev : Event) : Prop :=
  ev.name = "starting" ∨ ev.name = "started" ∨ ev.name = "stopping" ∨ ev.name = "stopped"

/-- What `job_emit_event` does to the queue: it adds one pending event, which
blocks the job in the states that wait for their event. -/
structure Emitted (sys : Sys) (job : Job) (sys' : Sys) (e : EventId) : Prop where
  fresh : e = sys.lastEvent + 1
  lastEvent : sys'.lastEvent = e
  lastPid : sys'.lastPid = sys.lastPid
  log : sys'.log = sys.log
  events : ∃ ev : Event, sys'.events = sys.events ++ [ev] ∧ ev.id = e ∧
    ev.progress = .pending ∧ ev.blockers = 0 ∧ ev.failed = false ∧
    ev.blocking = if job.state = .starting ∨ job.state = .stopping then [.job job.id] else []
  named : ∀ ev, sys'.events = sys.events ++ [ev] → ev.ofJob

theorem jobEmitEvent_emitted {x : Host} {sys sys' : Sys} {job : Job} {e : EventId}
    (h : jobEmitEvent x sys job = .ok (sys', e)) : Emitted sys job sys' e := by
  unfold jobEmitEvent at h
  cases hs : job.state <;> simp only [hs, reduceCtorEq] at h
  all_goals
    cases h
    refine ⟨rfl, rfl, rfl, rfl, ⟨_, rfl, rfl, rfl, rfl, rfl, by simp [hs]⟩, fun ev hev => ?_⟩
    obtain rfl : _ = ev := by simpa using hev
    simp [Event.ofJob]

/-- The states whose entry emits an event. -/
def JobState.emits : JobState → Bool
  | .starting | .running | .stopping | .waiting => true
  | _ => false

theorem jobEmitEvent_ok (x : Host) (sys : Sys) (job : Job) (h : job.state.emits = true) :
    ∃ sys' e, jobEmitEvent x sys job = .ok (sys', e) := by
  unfold jobEmitEvent
  cases hs : job.state <;> simp only [hs, JobState.emits, Bool.false_eq_true] at h
  all_goals exact ⟨_, _, rfl⟩

/-- A new event is not blocked. -/
theorem Emitted.blockers {sys sys' : Sys} {job : Job} {e : EventId}
    (h : Emitted sys job sys' e) (e' : EventId) : sys'.blockers e' = sys.blockers e' := by
  obtain ⟨ev, hevents, -, -, hb, -⟩ := h.events
  simp only [Sys.blockers, Sys.event?, hevents, List.find?_append, List.find?_singleton]
  cases hf : sys.events.find? fun ev => decide (ev.id = e') with
  | some ev' => rfl
  | none =>
    simp only [Option.none_or, Option.map_none, Option.getD_none]
    split <;> simp [hb]

/-! ## Completion -/

/-- The event of an entry for an event. -/
def Blocked.event? : Blocked → Option EventId
  | .event e => some e
  | _ => none

/-- The message of an entry for a request that waits for a job. -/
def Blocked.message? : Blocked → Option MessageId
  | .jobStartMethod m | .jobStopMethod m | .jobRestartMethod m => some m
  | .instanceStartMethod m | .instanceStopMethod m | .instanceRestartMethod m => some m
  | _ => none

/-- Whether an entry may wait for a job. -/
def Blocked.mayWait (b : Blocked) : Bool :=
  b.event?.isSome || b.message?.isSome

/-- What `job_finished` does for a list of entries. -/
structure Finished (failed : Bool) (sys : Sys) (bs : List Blocked) (sys' : Sys) : Prop where
  queue : Extends sys sys' []
  lastPid : sys'.lastPid = sys.lastPid
  log : sys'.log =
    ((bs.filterMap Blocked.message?).map fun m => Action.replied m (!failed)).reverse ++ sys.log
  blockers : ∀ e, sys'.blockers e + (bs.filterMap Blocked.event?).count e = sys.blockers e

/-- The entries may wait for a job, and the blocks that they stand for are
held. -/
structure Releasable (sys : Sys) (bs : List Blocked) : Prop where
  entries : ∀ b ∈ bs, b.mayWait = true
  held : ∀ e, (bs.filterMap Blocked.event?).count e ≤ sys.blockers e

theorem finishBlocked_sat {failed : Bool} {sys : Sys} {b : Blocked} :
    Sat (finishBlocked failed sys b) (Finished failed sys [b])
      (fun f => f.ofStateMachine = false ∧
        (b.mayWait = false ∨ ∃ e, b = .event e ∧ sys.blockers e = 0)) := by
  cases b with
  | event e =>
    have hmark : ∀ sys₁, sys₁ = (if failed then sys.modifyEvent e fun ev =>
        { ev with failed := true } else sys) →
        Touches sys sys₁ ∧ ∀ e', sys₁.blockers e' = sys.blockers e' := by
      rintro sys₁ rfl
      split
      · refine ⟨touches_modifyEvent fun _ => rfl, fun e' => ?_⟩
        rw [blockers_modifyEvent (f := fun ev => { ev with failed := true }) fun _ => rfl]
        split
        · rename_i h
          rw [h]
          rfl
        · rfl
      · exact ⟨.refl sys, fun _ => rfl⟩
    obtain ⟨hsame, hblockers⟩ := hmark _ rfl
    refine eventUnblock_sat.mono ?_ ?_
    · rintro sys' ⟨hsame', hblockers'⟩
      have htouch := hsame.trans hsame'
      refine ⟨htouch.toExtends, htouch.lastPid, by simp [htouch.log, Blocked.message?],
        fun e' => ?_⟩
      have := hblockers' e'
      rw [hblockers] at this
      change _ + [e].count e' = _
      rw [count_cons_ite]
      simpa using this
    · rintro f ⟨hb, hf⟩
      refine ⟨?_, .inr ⟨e, rfl, ?_⟩⟩
      · rcases hf with rfl | rfl <;> rfl
      · rw [← hb, hblockers]
  | job | emitMethod => exact ⟨rfl, .inl rfl⟩
  | _ => exact ⟨.act sys _, rfl, by simp [Sys.act, Blocked.message?],
      fun e => by simp [List.filterMap_cons, Blocked.event?, Sys.blockers_act]⟩

/-- A new event does not change what can be given back. -/
theorem Emitted.releasable {sys sys' : Sys} {job : Job} {e : EventId} {bs : List Blocked}
    (h : Emitted sys job sys' e) (hr : Releasable sys bs) : Releasable sys' bs :=
  ⟨hr.entries, fun e' => h.blockers e' ▸ hr.held e'⟩

theorem Finished.trans {failed : Bool} {sys sys' sys'' : Sys} {b : Blocked}
    {bs : List Blocked} (h : Finished failed sys [b] sys') (h' : Finished failed sys' bs sys'') :
    Finished failed sys (b :: bs) sys'' := by
  refine ⟨h.queue.trans h'.queue, h'.lastPid.trans h.lastPid, ?_, fun e => ?_⟩
  · rw [h'.log, h.log]
    cases hb : b.message? <;> simp [hb]
  · have h₁ := h.blockers e
    have h₂ := h'.blockers e
    cases hb : b.event? <;> simp only [List.filterMap_cons, hb, List.filterMap_nil,
      count_cons_ite, List.count_nil] at h₁ ⊢ <;> omega

theorem foldlM_finishBlocked_sat {failed : Bool} {sys : Sys} {bs : List Blocked} :
    Sat (bs.foldlM (finishBlocked failed) sys) (Finished failed sys bs)
      (fun f => f.ofStateMachine = false ∧ ¬ Releasable sys bs) := by
  induction bs generalizing sys with
  | nil => exact ⟨.refl sys, rfl, by simp, by simp⟩
  | cons b bs ih =>
    rw [List.foldlM_cons, sat_bind]
    refine finishBlocked_sat.mono (fun sys₁ h₁ => ?_) ?_
    · refine ih.mono (fun sys₂ h₂ => h₁.trans h₂) ?_
      rintro f ⟨hf, hrel⟩
      refine ⟨hf, fun h => hrel ⟨fun b hb => h.entries b (List.mem_cons_of_mem _ hb), ?_⟩⟩
      intro e
      have hheld := h.held e
      have hcount := h₁.blockers e
      cases hb : b.event? <;> simp only [List.filterMap_cons, hb, List.filterMap_nil,
        count_cons_ite, List.count_nil] at hheld hcount <;> omega
    · rintro f ⟨hf, hb⟩
      refine ⟨hf, fun h => ?_⟩
      rcases hb with hb | ⟨e, rfl, hzero⟩
      · have := h.entries b List.mem_cons_self
        simp [hb] at this
      · have hheld := h.held e
        simp only [List.filterMap_cons, Blocked.event?, count_cons_ite, if_true] at hheld
        omega

/-- `job_finished` answers and unblocks those that wait for the job. -/
theorem jobFinished_sat {sys : Sys} {job : Job} {failed : Bool} :
    Sat (jobFinished sys job failed)
      (fun r => r.2 = { job with blocking := [] } ∧ Finished failed sys job.blocking r.1)
      (fun f => f.ofStateMachine = false ∧ ¬ Releasable sys job.blocking) := by
  unfold jobFinished
  rw [sat_bind]
  exact foldlM_finishBlocked_sat.imp fun sys' h => ⟨rfl, h⟩

theorem finishBlocked_ofQueue {failed : Bool} {sys : Sys} {b : Blocked} :
    Sat (finishBlocked failed sys b) (fun _ => True) (fun f => f.ofQueue = true) := by
  cases b with
  | event e => exact eventUnblock_ofQueue e
  | job | emitMethod => rfl
  | _ => trivial

theorem jobFinished_ofQueue {sys : Sys} {job : Job} {failed : Bool} :
    Sat (jobFinished sys job failed) (fun _ => True) (fun f => f.ofQueue = true) := by
  unfold jobFinished
  rw [sat_bind]
  refine (foldlM_sat (P := fun _ => True) trivial fun _ _ _ _ => ?_).imp fun _ _ => trivial
  exact finishBlocked_ofQueue

/-- What `job_failed` does: it records the first failure and answers those that
wait. -/
inductive Fails (sys : Sys) (job : Job) (p : Option ProcessType) (status : Int) :
    Sys → Job → Prop where
  | already (failed : job.failed = true) : Fails sys job p status sys job
  | now {sys' : Sys} (failed : job.failed = false)
      (finish : Finished true sys job.blocking sys') :
      Fails sys job p status sys' { job with
        failed := true, failedProcess := p, exitStatus := status, blocking := [] }

theorem jobFailed_sat {sys : Sys} {job : Job} {p : Option ProcessType} {status : Int} :
    Sat (jobFailed sys job p status) (fun r => Fails sys job p status r.1 r.2)
      (fun f => f.ofStateMachine = false ∧ ¬ Releasable sys job.blocking) := by
  unfold jobFailed
  split
  · rename_i hf
    exact .already hf
  · rename_i hf
    refine jobFinished_sat.imp ?_
    rintro ⟨sys', _⟩ ⟨rfl, hfin⟩
    exact .now (by simpa using hf) hfin

/-! ## Processes -/

/-- `job_process_kill` leaves at most a new kill timer. -/
theorem jobProcessKill_sat {x : Host} {sys : Sys} {job : Job} {p : ProcessType} :
    Sat (jobProcessKill x sys job p)
      (fun r => r.1 = sys.act (.signalled (job.pid p) job.cls.killSignal) ∧
        ∃ timer proc, r.2 = { job with killTimer := timer, killProcess := proc })
      (fun f => f = .assertFailed .jobProcessKill) := by
  unfold jobProcessKill
  refine sat_assert (fun _ => rfl) fun _ => sat_assert (fun _ => rfl) fun _ =>
    sat_assert (fun _ => rfl) fun _ => ?_
  split
  · exact ⟨rfl, job.killTimer, job.killProcess, rfl⟩
  · exact sat_assert (fun _ => rfl) fun _ => ⟨rfl, _, _, rfl⟩

end Startup
