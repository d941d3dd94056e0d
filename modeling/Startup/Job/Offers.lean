import Startup.Job.Replies

/-!
# What a pending event is offered to, as the log has it

`event_pending_handle_jobs` offers an event to conditions, and stops and starts what it
makes true.  The log records both (`Action.isOffer`), and nothing else that a call on a
job does is recorded so (`NoOffer`): the offers of `handleStopOn` are those that the job
and the event tell beforehand, `Job.offers`.
-/

namespace Startup

open Lib

/-- The condition of a job or a class was handled, or it has become true. -/
def Action.isOffer : Action → Bool
  | .offeredStop _ _ | .offeredStart _ _ | .stoppedFor _ _ | .startedFor _ _ => true
  | _ => false

/-- The offers that init has made, the latest first. -/
def Sys.offers (sys : Sys) : List Action := sys.log.filter Action.isOffer

/-- A call that makes no offers. -/
def NoOffer {α : Type} (sys : Sys) (m : Except Fault (Sys × α)) : Prop :=
  Sat m (fun r => r.1.offers = sys.offers) (fun _ => True)

variable {x : Host} {sys sys' : Sys} {job : Job}

theorem Sys.offers_eq (h : sys'.log = sys.log) : sys'.offers = sys.offers := by
  rw [Sys.offers, h]
  rfl

theorem Sys.offers_act (sys : Sys) {a : Action} (ha : a.isOffer = false) :
    (sys.act a).offers = sys.offers := by
  show (a :: sys.log).filter Action.isOffer = _
  rw [List.filter_cons_of_neg (by simp [ha])]
  rfl

theorem Sys.offers_offer (sys : Sys) {a : Action} (ha : a.isOffer = true) :
    (sys.act a).offers = a :: sys.offers := by
  show (a :: sys.log).filter Action.isOffer = _
  rw [List.filter_cons_of_pos ha]
  rfl

theorem Touches.offers (h : Touches sys sys') : sys'.offers = sys.offers := Sys.offers_eq h.log

theorem Finished.offers {failed : Bool} {bs : List Blocked} (h : Finished failed sys bs sys') :
    sys'.offers = sys.offers := by
  rw [Sys.offers, h.log, List.filter_append]
  have hnone : ((bs.filterMap Blocked.message?).map fun m =>
      Action.replied m (!failed)).reverse.filter Action.isOffer = [] := by
    refine List.filter_eq_nil_iff.mpr fun a ha => ?_
    obtain ⟨m, -, rfl⟩ := List.mem_map.mp (List.mem_reverse.mp ha)
    simp [Action.isOffer]
  rw [hnone]
  rfl

namespace NoOffer

variable {α β : Type}

theorem bind {m : Except Fault (Sys × α)} {f : Sys × α → Except Fault (Sys × β)}
    (h : NoOffer sys m) (hf : ∀ sys' a, NoOffer sys' (f (sys', a))) : NoOffer sys (m >>= f) := by
  rw [NoOffer, sat_bind]
  exact Sat.imp h fun r hr => Sat.imp (hf r.1 r.2) fun _ hr' => hr'.trans hr

/-- A step that does not write the shared state. -/
theorem read {m : Except Fault α} {f : α → Except Fault (Sys × β)}
    (hf : ∀ a, NoOffer sys (f a)) : NoOffer sys (m >>= f) := by
  rw [NoOffer, sat_bind]
  exact (sat_true (m := m)).imp fun a _ => hf a

theorem after {m : Except Fault (Sys × α)} (h : NoOffer sys' m)
    (hs : sys'.offers = sys.offers) : NoOffer sys m :=
  Sat.imp h fun _ hr => hr.trans hs

end NoOffer

/-! ## The state machine -/

theorem Enters.offers {old : JobState} {pass : Pass} (h : Enters x sys old job pass) :
    pass.Holds (fun sys' _ _ => sys'.offers = sys.offers)
      (fun sys' _ => sys'.offers = sys.offers) := by
  cases h with
  | starting st goal from_ emit | runningTask st goal from_ emit | stopping st from_ emit =>
    exact Sys.offers_eq emit.log
  | spawn p proc => exact Sys.offers_act sys rfl
  | noSpawn | wait | skip | dead => rfl
  | resumed st goal from_ finish => exact finish.offers
  | running st goal from_ emit task finish | waiting st goal from_ emit finish =>
    exact finish.offers.trans (Sys.offers_eq emit.log)
  | kill => exact Sys.offers_act sys rfl

theorem jobChangeState_noOffer (sys : Sys) (job : Job) (state : JobState) :
    NoOffer sys (jobChangeState x sys job state) := by
  refine (jobChangeState_rule (I := fun sys' _ _ => sys'.offers = sys.offers)
    (F := fun sys' _ => sys'.offers = sys.offers) ?_ (fun _ _ _ _ _ _ _ _ => trivial) rfl).imp ?_
  · intro sys' job' state pass h _ _ hpass
    have hoffers := hpass.offers
    cases pass with
    | next => exact hoffers.trans h
    | freed => exact hoffers.trans h
  · rintro ⟨sys', job' | job'⟩ h
    · exact h.choose_spec.1
    · exact h

theorem jobChangeGoal_noOffer (sys : Sys) (job : Job) (goal : JobGoal) :
    NoOffer sys (jobChangeGoal x sys job goal) := by
  rw [jobChangeGoal_eq]
  split
  · exact NoOffer.read fun r => jobChangeState_noOffer sys r.1 r.2
  · rfl

/-! ## The calls of `event_pending_handle_jobs` -/

theorem jobFinished_noOffer (sys : Sys) (job : Job) (failed : Bool) :
    NoOffer sys (jobFinished sys job failed) :=
  jobFinished_sat.mono (fun _ hr => hr.2.offers) fun _ _ => trivial

theorem resetOperator_noOffer (sys : Sys) (root : EventOperator) :
    NoOffer sys (resetOperator sys root) :=
  resetOperator_touches.imp fun _ h => h.offers

theorem blockOnEvents_noOffer (sys : Sys) (job : Job) (root : EventOperator) (cond : Bool) :
    NoOffer sys (blockOnEvents sys job root cond) := by
  unfold blockOnEvents
  split
  · unfold eventOperatorEvents NoOffer
    rw [sat_bind, sat_bind]
    refine (sat_true (m := filteredEvents _ _ _)).imp fun events _ => ?_
    rw [sat_bind]
    exact (blockAll_touches sys _).imp fun sys' h => h.offers
  · rfl

theorem takeStopEnv_noOffer (sys : Sys) (job : Job) (root : EventOperator) :
    NoOffer sys (takeStopEnv x sys job root) := by
  unfold takeStopEnv
  split
  · exact NoOffer.read fun env => jobFinished_noOffer sys _ _
  · rfl

theorem takeStartEnv_noOffer (sys : Sys) (job : Job) (root : EventOperator) (env : List String) :
    NoOffer sys (takeStartEnv x sys job root env) := by
  unfold takeStartEnv
  split
  · exact (jobFinished_noOffer sys _ _).bind fun sys' job' => NoOffer.read fun _ => rfl
  · rfl

theorem changeGoalIfOther_noOffer (sys : Sys) (job : Job) (goal : JobGoal) :
    NoOffer sys (changeGoalIfOther x sys job goal) := by
  unfold changeGoalIfOther
  split
  · exact jobChangeGoal_noOffer sys job goal
  · rfl

theorem stopForEvents_noOffer (sys : Sys) (job : Job) (root : EventOperator) :
    NoOffer sys (stopForEvents x sys job root) :=
  (takeStopEnv_noOffer sys job root).bind fun sys₁ job₁ =>
    (blockOnEvents_noOffer sys₁ job₁ root _).bind fun sys₂ job₂ =>
      (changeGoalIfOther_noOffer sys₂ job₂ .stop).bind fun sys₃ _ =>
        NoOffer.read fun _ => (resetOperator_noOffer sys₃ root).bind fun _ _ => rfl

theorem inductInstance_noOffer (sys : Sys) (job : Job) (root : EventOperator)
    (env : List String) : NoOffer sys (inductInstance x sys job root env) :=
  (takeStartEnv_noOffer sys job root env).bind fun sys₁ job₁ =>
    (blockOnEvents_noOffer sys₁ job₁ root _).bind fun sys₂ job₂ =>
      changeGoalIfOther_noOffer sys₂ job₂ .start

/-- The condition matches the event, and is true then. -/
def EventOperator.completes (x : Host) (event : Event) (env : List String)
    (root : EventOperator) : Bool :=
  ((eventOperatorHandle x event env root).2 != 0) && (eventOperatorHandle x event env root).1.value

/-- The offers that an event makes to a job, in order. -/
def Job.offers (x : Host) (event : Event) (job : Job) : List Action :=
  match job.stopOn with
  | none => []
  | some root =>
    .offeredStop event.id job.id ::
      if root.completes x event (job.env.getD []) then [.stoppedFor event.id job.id] else []

theorem handleStopOn_offers (x : Host) (sys : Sys) (job : Job) (event : Event) :
    Sat (handleStopOn x sys job event)
      (fun r => r.1.offers = (job.offers x event).reverse ++ sys.offers) (fun _ => True) := by
  unfold handleStopOn Job.offers
  cases job.stopOn with
  | none => rfl
  | some root =>
    unfold handleOperator
    dsimp only
    rw [sat_bind, sat_bind]
    refine (blockAll_touches sys _).imp fun sys₁ h₁ => ?_
    have hoffered := (Sys.offers_offer sys₁ (a := .offeredStop event.id job.id) rfl).trans
      (congrArg (Action.offeredStop event.id job.id :: ·) h₁.offers)
    show Sat (if root.completes x event (job.env.getD []) then _ else _) _ _
    split
    · refine (stopForEvents_noOffer _ _ _).imp fun r hr => ?_
      rw [hr, Sys.offers_offer _ (by rfl), hoffered]
      rfl
    · exact hoffered

end Startup
