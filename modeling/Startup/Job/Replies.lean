import Startup.Job.Calls

/-!
# The requests that a job answers

A call on a job may answer a request at once, let one wait for the job, or release
those that wait, of which `job_failed` gives them an error.  `Effect` lists these
deeds in order; `jobStep_effect` says that an input that is a request has one deed
of the first two kinds, and any other input none.

The lists are accounts: nothing is answered but by these deeds
(`Effect.replies`), and the requests that wait for the job are those that have
begun to and have not been released (`Effect.requests`).
-/

namespace Startup

open Lib

/-- The requests that wait for a job, those that have waited longest first. -/
def Job.requests (job : Job) : List MessageId := job.blocking.filterMap Blocked.message?

/-- The answer that an action is. -/
def Action.reply? : Action → Option (MessageId × Bool)
  | .replied m ok => some (m, ok)
  | _ => none

/-- The answers that init has given, the latest first. -/
def Sys.replies (sys : Sys) : List (MessageId × Bool) := sys.log.filterMap Action.reply?

/-- What a call does about requests.  `failed` tells the releases of `job_failed`. -/
inductive Deed where
  | answers (message : MessageId) (ok : Bool)
  | holds (message : MessageId)
  | releases (message : MessageId) (failed : Bool)

namespace Deed

/-- The answer that goes out: an error when `job_failed` releases the request. -/
def reply? : Deed → Option (MessageId × Bool)
  | answers m ok => some (m, ok)
  | holds _ => none
  | releases m failed => some (m, !failed)

/-- The request that is dealt with for the first time. -/
def asked? : Deed → Option MessageId
  | answers m _ => some m
  | holds m => some m
  | releases _ _ => none

/-- The request that begins to wait. -/
def held? : Deed → Option MessageId
  | holds m => some m
  | _ => none

/-- The request that does not wait any more. -/
def released? : Deed → Option MessageId
  | releases m _ => some m
  | _ => none

end Deed

/-- The deeds of a call on a job, in order. -/
inductive Effect : Sys → Job → List Deed → Sys → Job → Prop where
  | quiet {sys sys' : Sys} {job job' : Job} (quiet : NoAnswer sys sys')
      (id : job'.id = job.id) (requests : job'.requests = job.requests) :
      Effect sys job [] sys' job'
  | answer {sys : Sys} {job : Job} (m : MessageId) (ok : Bool) :
      Effect sys job [.answers m ok] (sys.act (.replied m ok)) job
  | hold {sys : Sys} {job : Job} (m : MessageId) (entry : Blocked)
      (message : entry.message? = some m) :
      Effect sys job [.holds m] sys { job with blocking := job.blocking ++ [entry] }
  /-- `job_finished` -/
  | finished {sys sys' : Sys} {job job' : Job} (finish : Finished false sys job.blocking sys')
      (id : job'.id = job.id) (blocking : job'.blocking = []) :
      Effect sys job (job.requests.map fun m => .releases m false) sys' job'
  /-- `job_failed`, for a job that had not failed yet -/
  | failed {sys sys' : Sys} {job job' : Job} (was : job.failed = false)
      (finish : Finished true sys job.blocking sys') (now : job'.failed = true)
      (id : job'.id = job.id) (blocking : job'.blocking = []) :
      Effect sys job (job.requests.map fun m => .releases m true) sys' job'
  | trans {sys sys' sys'' : Sys} {job job' job'' : Job} {ds ds' : List Deed}
      (first : Effect sys job ds sys' job') (second : Effect sys' job' ds' sys'' job'') :
      Effect sys job (ds ++ ds') sys'' job''

/-- A call that deals with the requests `ms` for the first time. -/
def Deals (ms : List MessageId) (sys : Sys) (job : Job) (sys' : Sys) (job' : Job) : Prop :=
  ∃ ds, Effect sys job ds sys' job' ∧ ds.filterMap Deed.asked? = ms

section

variable {x : Host} {sys sys' sys'' : Sys} {job job' job'' : Job} {ds : List Deed}
  {ms ms' : List MessageId}

theorem NoAnswer.replies (h : NoAnswer sys sys') : sys'.replies = sys.replies := by
  obtain ⟨acts, hlog, hacts⟩ := h.log
  have hnone : acts.filterMap Action.reply? = [] := by
    refine List.filterMap_eq_nil_iff.mpr fun a ha => ?_
    cases a with
    | replied m ok => exact absurd ha (hacts m ok)
    | _ => rfl
  rw [Sys.replies, Sys.replies, hlog, List.filterMap_append, hnone]
  rfl

theorem Finished.replies {failed : Bool} (h : Finished failed sys job.blocking sys') :
    sys'.replies = (job.requests.map fun m => (m, !failed)).reverse ++ sys.replies := by
  rw [Sys.replies, h.log, List.filterMap_append, List.filterMap_reverse, List.filterMap_map]
  congr 2
  exact List.filterMap_eq_map.symm ▸ rfl

namespace Effect

/-- Every answer is one of the deeds. -/
theorem replies (h : Effect sys job ds sys' job') :
    sys'.replies = (ds.filterMap Deed.reply?).reverse ++ sys.replies := by
  induction h with
  | quiet hquiet => exact hquiet.replies
  | answer | hold => rfl
  | finished finish | failed was finish =>
    rw [finish.replies, List.filterMap_map]
    congr 2
    exact List.filterMap_eq_map.symm ▸ rfl
  | trans _ _ ih ih' =>
    rw [ih', ih, List.filterMap_append, List.reverse_append, List.append_assoc]

/-- The requests are released in the order in which they have begun to wait. -/
theorem requests (h : Effect sys job ds sys' job') :
    job.requests ++ ds.filterMap Deed.held? = ds.filterMap Deed.released? ++ job'.requests := by
  have hreleases : ∀ (l : List MessageId) failed,
      (l.map fun m => Deed.releases m failed).filterMap Deed.held? = [] ∧
        (l.map fun m => Deed.releases m failed).filterMap Deed.released? = l := by
    intro l failed
    induction l with
    | nil => exact ⟨rfl, rfl⟩
    | cons m l ih => exact ⟨ih.1, congrArg (m :: ·) ih.2⟩
  induction h with
  | quiet _ _ hrequests => exact (List.append_nil _).trans hrequests.symm
  | answer => exact List.append_nil _
  | @hold sys job m entry hmessage =>
    show _ = (job.blocking ++ [entry]).filterMap Blocked.message?
    rw [List.filterMap_append, show [entry].filterMap Blocked.message? = [m] by simp [hmessage]]
    rfl
  | @finished _ _ job job' _ _ hblocking | @failed _ _ job job' _ _ _ _ hblocking =>
    rw [(hreleases job.requests _).1, (hreleases job.requests _).2,
      show job'.requests = [] by rw [Job.requests, hblocking]; rfl]
  | trans _ _ ih ih' =>
    rw [List.filterMap_append, List.filterMap_append, ← List.append_assoc, ih, List.append_assoc,
      ih', List.append_assoc]

/-- The deeds of each kind, counted. -/
theorem count_deeds (ds : List Deed) (m : MessageId) :
    ((ds.filterMap Deed.reply?).map Prod.fst).count m + (ds.filterMap Deed.held?).count m =
      (ds.filterMap Deed.asked?).count m + (ds.filterMap Deed.released?).count m := by
  induction ds with
  | nil => rfl
  | cons d ds ih =>
    cases d with
    | answers m' ok =>
      simp only [List.filterMap_cons, Deed.reply?, Deed.held?, Deed.asked?, Deed.released?,
        List.map_cons, List.count_cons]
      omega
    | holds m' =>
      simp only [List.filterMap_cons, Deed.reply?, Deed.held?, Deed.asked?, Deed.released?,
        List.count_cons]
      omega
    | releases m' failed =>
      simp only [List.filterMap_cons, Deed.reply?, Deed.held?, Deed.asked?, Deed.released?,
        List.map_cons, List.count_cons]
      omega

/-- The answers to a request and its entries, before and after. -/
theorem balance (h : Effect sys job ds sys' job') (m : MessageId) :
    (sys'.replies.map Prod.fst).count m + job'.requests.count m =
      (sys.replies.map Prod.fst).count m + job.requests.count m +
        (ds.filterMap Deed.asked?).count m := by
  have hdeeds := count_deeds ds m
  have hrequests := congrArg (List.count m) h.requests
  rw [List.count_append, List.count_append] at hrequests
  rw [h.replies, List.map_append, List.count_append, List.map_reverse, List.count_reverse]
  omega

/-- No event gets an emitter that waits for it. -/
theorem emits (h : Effect sys job ds sys' job') {m : MessageId} (hm : sys'.AwaitsEmit m) :
    sys.AwaitsEmit m := by
  induction h with
  | quiet hquiet => exact hquiet.emits m hm
  | answer | hold => exact hm
  | finished finish | failed _ finish => exact finish.queue.awaitsEmit hm
  | trans _ _ ih ih' => exact ih (ih' hm)

theorem id (h : Effect sys job ds sys' job') : job'.id = job.id := by
  induction h with
  | quiet _ hid | finished _ hid | failed _ _ _ hid => exact hid
  | answer | hold => rfl
  | trans _ _ ih ih' => exact ih'.trans ih

end Effect

namespace Deals

theorem quiet (h : NoAnswer sys sys') (hid : job'.id = job.id)
    (hrequests : job'.requests = job.requests) : Deals [] sys job sys' job' :=
  ⟨[], .quiet h hid hrequests, rfl⟩

theorem trans (h : Deals ms sys job sys' job') (h' : Deals ms' sys' job' sys'' job'') :
    Deals (ms ++ ms') sys job sys'' job'' := by
  obtain ⟨ds, heffect, hasked⟩ := h
  obtain ⟨ds', heffect', hasked'⟩ := h'
  exact ⟨ds ++ ds', heffect.trans heffect', by rw [List.filterMap_append, hasked, hasked']⟩

theorem asked_releases (l : List MessageId) (failed : Bool) :
    (l.map fun m => Deed.releases m failed).filterMap Deed.asked? = [] := by
  induction l with
  | nil => rfl
  | cons m l ih => exact ih

theorem finished (h : Finished false sys job.blocking sys') (hid : job'.id = job.id)
    (hblocking : job'.blocking = []) : Deals [] sys job sys' job' :=
  ⟨_, .finished h hid hblocking, asked_releases ..⟩

theorem closed : Closed (Deals []) where
  quiet h hid hblocking _ := quiet h hid (congrArg (List.filterMap Blocked.message?) hblocking)
  finished h hid hblocking _ := finished h hid hblocking
  fails h := by
    cases h with
    | already => exact quiet (.refl _) rfl rfl
    | now was finish => exact ⟨_, .failed was finish rfl rfl rfl, asked_releases ..⟩
  trans h h' := trans h h'

end Deals

/-! ## Requests -/

theorem refuse_deals (sys : Sys) (job : Job) (m : MessageId) :
    Sat (refuse sys job m) (fun r => Deals [m] sys job r.1 r.2.job) (fun _ => True) :=
  ⟨_, .answer m false, rfl⟩

/-- The request waits from now on, or is to be answered. -/
theorem replaceBlocking_deals {entry : Blocked} {m : MessageId} {wait : Bool}
    (hentry : entry.message? = some m) :
    Sat (replaceBlocking sys job entry wait)
      (fun r => Deals (if wait then [m] else []) sys job r.1 r.2) (fun _ => True) := by
  unfold replaceBlocking
  rw [sat_bind]
  refine jobFinished_sat.mono ?_ fun _ _ => trivial
  rintro ⟨sys', _⟩ ⟨rfl, hfinish⟩
  have hfinished : Deals [] sys job sys' { job with blocking := [] } := .finished hfinish rfl rfl
  cases wait with
  | false => exact hfinished
  | true => exact hfinished.trans ⟨_, .hold m entry hentry, rfl⟩

theorem replyUnlessWait_deals (sys : Sys) (job : Job) (m : MessageId) (wait : Bool) :
    Deals (if wait then [] else [m]) sys job (replyUnlessWait sys m wait) job := by
  cases wait with
  | true => exact .quiet (.refl sys) rfl rfl
  | false => exact ⟨_, .answer m true, rfl⟩

/-- A request that waits is dealt with in front of what the call goes on to do, and one
that does not behind it. -/
theorem deals_wait {m : MessageId} {wait : Bool}
    (h : Deals ((if wait then [m] else []) ++ ([] ++ if wait then [] else [m])) sys job sys' job') :
    Deals [m] sys job sys' job' := by
  cases wait <;> exact h

theorem changeGoalFor_deals {entry : Blocked} {m : MessageId} {wait : Bool} {goal : JobGoal}
    (hentry : entry.message? = some m) :
    Sat (changeGoalFor x sys job entry m wait goal)
      (fun r => Deals [m] sys job r.1 r.2.job) (fun _ => True) := by
  unfold changeGoalFor
  rw [sat_bind]
  refine (replaceBlocking_deals hentry).imp fun r hr => ?_
  rw [sat_bind]
  refine (jobChangeGoal_within Deals.closed r.1 r.2 goal).imp fun r' hr' => ?_
  exact deals_wait (hr.trans (hr'.trans (replyUnlessWait_deals r'.1 r'.2.job m wait)))

theorem restartFor_deals {entry : Blocked} {m : MessageId} {wait : Bool}
    (hentry : entry.message? = some m) :
    Sat (restartFor x sys job entry m wait)
      (fun r => Deals [m] sys job r.1 r.2.job) (fun _ => True) := by
  unfold restartFor
  rw [sat_bind]
  refine (replaceBlocking_deals hentry).imp fun r hr => ?_
  rw [sat_bind]
  refine (jobChangeGoal_within Deals.closed r.1 r.2 .stop).imp ?_
  rintro ⟨sys₁, job₁ | job₁⟩ hr₁
  · rw [sat_bind]
    refine sat_iff.mpr ⟨?_, fun _ _ => trivial⟩
    rintro _ ⟨⟩
    rw [sat_bind]
    refine (jobChangeGoal_within Deals.closed sys₁ job₁ .start).imp fun r₂ hr₂ => ?_
    exact deals_wait (hr.trans (Deals.trans (hr₁.trans hr₂)
      (replyUnlessWait_deals r₂.1 r₂.2.job m wait)))
  · trivial

/-- The reply of `job_class_start` and `job_class_restart` reads the path of the job. -/
theorem getUnlessWait_deals {m : MessageId} {wait : Bool} {fn : SourceFn}
    {c : Except Fault (Sys × JobRef)}
    (hc : Sat c (fun r => Deals [m] sys job r.1 r.2.job) (fun _ => True)) :
    Sat (do
      let (sys, ref) ← c
      if wait then .ok (sys, ref)
      else
        let job ← ref.get fn
        .ok (sys, .live job)) (fun r => Deals [m] sys job r.1 r.2.job) (fun _ => True) := by
  rw [sat_bind]
  refine hc.imp ?_
  rintro ⟨sys', job' | job'⟩ h
  · cases wait <;> exact h
  · cases wait
    · trivial
    · exact h

theorem Deals.after {c : Except Fault (Sys × JobRef)}
    (hc : Sat c (fun r => Deals ms sys' job' r.1 r.2.job) (fun _ => True))
    (h : Deals [] sys job sys' job') :
    Sat c (fun r => Deals ms sys job r.1 r.2.job) (fun _ => True) :=
  hc.imp fun _ h' => h.trans h'

/-- The request that an input is. -/
def Input.request? : Input → Option MessageId
  | .start m _ | .stop m _ | .restart m _ => some m
  | .classStart _ m _ | .classStop _ m _ | .classRestart _ m _ => some m
  | _ => none

theorem jobRequest_deals {i : Input} {m : MessageId} (hi : i.request? = some m) :
    Sat (jobStep x sys job i) (fun r => Deals [m] sys job r.1 r.2.job) (fun _ => True) := by
  have hsame : ∀ {job' : Job}, job'.id = job.id → job'.blocking = job.blocking →
      Deals [] sys job sys job' := fun hid h =>
    .quiet (.refl sys) hid (congrArg (List.filterMap Blocked.message?) h)
  cases i with
  | start message wait =>
    cases hi
    show Sat (jobStart x sys job m wait) _ _
    unfold jobStart
    split
    · exact refuse_deals sys job m
    split
    · exact refuse_deals sys job m
    · exact Deals.after (changeGoalFor_deals (by rfl)) (hsame (by rfl) (by rfl))
  | stop message wait =>
    cases hi
    show Sat (jobStop x sys job m wait) _ _
    unfold jobStop
    split
    · exact refuse_deals sys job m
    · exact Deals.after (changeGoalFor_deals (by rfl)) (hsame (by rfl) (by rfl))
  | restart message wait =>
    cases hi
    show Sat (jobRestart x sys job m wait) _ _
    unfold jobRestart
    split
    · exact refuse_deals sys job m
    · exact Deals.after (restartFor_deals (by rfl)) (hsame (by rfl) (by rfl))
  | classStart env message wait =>
    cases hi
    show Sat (jobClassStartInstance x sys job env m wait) _ _
    unfold jobClassStartInstance
    split
    · exact refuse_deals sys job m
    · exact getUnlessWait_deals
        (Deals.after (changeGoalFor_deals (by rfl)) (hsame (by rfl) (by rfl)))
  | classStop env message wait =>
    cases hi
    show Sat (jobClassStopInstance x sys job env m wait) _ _
    unfold jobClassStopInstance
    split
    · exact refuse_deals sys job m
    · exact Deals.after (changeGoalFor_deals (by rfl)) (hsame (by rfl) (by rfl))
  | classRestart env message wait =>
    cases hi
    show Sat (jobClassRestartInstance x sys job env m wait) _ _
    unfold jobClassRestartInstance
    split
    · exact refuse_deals sys job m
    · exact getUnlessWait_deals (Deals.after (restartFor_deals (by rfl)) (hsame (by rfl) (by rfl)))
  | _ => cases hi

/-! ## Events -/

theorem Touches.noAnswer (h : Touches sys sys') : NoAnswer sys sys' :=
  ⟨⟨[], h.log, by simp⟩, fun _ hm => h.toExtends.awaitsEmit hm⟩

theorem blockAll_touches (sys : Sys) (es : List EventId) :
    Sat (blockAll sys es) (Touches sys) (fun _ => True) := by
  refine foldlM_sat (.refl sys) fun sys' h e _ => ?_
  unfold eventBlock
  split
  · trivial
  · exact h.trans (touches_modifyEvent fun _ => rfl)

theorem unblockAll_touches (sys : Sys) (es : List EventId) :
    Sat (unblockAll sys es) (Touches sys) (fun _ => True) :=
  foldlM_sat (.refl sys) fun _ h _ _ =>
    eventUnblock_sat.mono (fun _ h' => h.trans h'.1) fun _ _ => trivial

theorem handleOperator_touches {root : EventOperator} {event : Event} {env : List String} :
    Sat (handleOperator x sys root event env) (fun r => Touches sys r.1) (fun _ => True) := by
  unfold handleOperator
  dsimp only
  rw [sat_bind]
  exact blockAll_touches sys _

theorem resetOperator_touches {root : EventOperator} :
    Sat (resetOperator sys root) (fun r => Touches sys r.1) (fun _ => True) := by
  unfold resetOperator
  rw [sat_bind]
  exact unblockAll_touches sys _

theorem copyOperator_touches {root : EventOperator} :
    Sat (copyOperator sys root) (fun r => Touches sys r.1) (fun _ => True) := by
  unfold copyOperator
  rw [sat_bind]
  exact blockAll_touches sys _

/-- The events wait for the job, and no client does that has not before. -/
theorem blockOnEvents_sat {root : EventOperator} {cond : Bool} :
    Sat (blockOnEvents sys job root cond) (fun r => NoAnswer sys r.1 ∧
      ∃ blocking, r.2 = { job with blocking := blocking } ∧ r.2.requests = job.requests)
      (fun _ => True) := by
  unfold blockOnEvents
  split
  · unfold eventOperatorEvents
    rw [sat_bind, sat_bind]
    refine (sat_true (m := filteredEvents _ _ _)).imp fun events _ => ?_
    rw [sat_bind]
    refine (blockAll_touches sys _).imp fun sys' h' => ⟨h'.noAnswer, _, rfl, ?_⟩
    have hnone : (events.map fun e => Blocked.event e.id).filterMap Blocked.message? = [] := by
      refine List.filterMap_eq_nil_iff.mpr fun b hb => ?_
      obtain ⟨e, -, rfl⟩ := List.mem_map.mp hb
      rfl
    show (job.blocking ++ events.map fun e => Blocked.event e.id).filterMap Blocked.message? = _
    rw [List.filterMap_append, hnone, List.append_nil]
    rfl
  · exact ⟨.refl sys, job.blocking, rfl, rfl⟩

theorem blockOnEvents_deals {root : EventOperator} {cond : Bool} :
    Sat (blockOnEvents sys job root cond) (fun r => Deals [] sys job r.1 r.2)
      (fun _ => True) := by
  refine blockOnEvents_sat.imp ?_
  rintro ⟨sys', _⟩ ⟨hquiet, blocking, rfl, hrequests⟩
  exact .quiet hquiet rfl hrequests

theorem takeStopEnv_deals {root : EventOperator} :
    Sat (takeStopEnv x sys job root) (fun r => Deals [] sys job r.1 r.2) (fun _ => True) := by
  unfold takeStopEnv
  split
  · rw [sat_bind]
    refine (sat_true (m := eventOperatorEnvironment _ _ _ _ _)).imp fun env _ => ?_
    refine jobFinished_sat.mono ?_ fun _ _ => trivial
    rintro ⟨sys', _⟩ ⟨rfl, hfinish⟩
    exact .finished hfinish rfl rfl
  · exact Deals.closed.refl sys job

theorem takeStartEnv_deals {root : EventOperator} {env : List String} :
    Sat (takeStartEnv x sys job root env) (fun r => Deals [] sys job r.1 r.2)
      (fun _ => True) := by
  unfold takeStartEnv
  split
  · rw [sat_bind]
    refine jobFinished_sat.mono ?_ fun _ _ => trivial
    rintro ⟨sys', _⟩ ⟨rfl, hfinish⟩
    rw [sat_bind]
    exact (sat_true (m := eventOperatorFds _ _ _ _ _)).imp fun _ _ => .finished hfinish rfl rfl
  · exact Deals.closed.refl sys job

theorem changeGoalIfOther_deals {goal : JobGoal} :
    Within (Deals []) sys job (changeGoalIfOther x sys job goal) := by
  unfold changeGoalIfOther
  split
  · exact jobChangeGoal_within Deals.closed sys job goal
  · exact .ok Deals.closed sys job

theorem stopForEvents_deals {root : EventOperator} :
    Within (Deals []) sys job (stopForEvents x sys job root) := by
  unfold stopForEvents Within
  rw [sat_bind]
  refine takeStopEnv_deals.imp fun r₁ h₁ => ?_
  rw [sat_bind]
  refine blockOnEvents_deals.imp fun r₂ h₂ => ?_
  rw [sat_bind]
  refine changeGoalIfOther_deals.imp ?_
  rintro ⟨sys₃, job₃ | job₃⟩ h₃
  · rw [sat_bind]
    refine sat_iff.mpr ⟨?_, fun _ _ => trivial⟩
    rintro _ ⟨⟩
    rw [sat_bind]
    refine resetOperator_touches.imp fun r₄ h₄ => ?_
    exact (h₁.trans h₂).trans (h₃.trans (.quiet h₄.noAnswer rfl rfl))
  · trivial

theorem handleStopOn_deals {event : Event} :
    Within (Deals []) sys job (handleStopOn x sys job event) := by
  unfold handleStopOn
  split
  · exact .ok Deals.closed sys job
  · unfold Within
    rw [sat_bind]
    refine handleOperator_touches.imp fun r h => ?_
    have hoffered : Deals [] sys job (r.1.act (.offeredStop event.id job.id))
        { job with stopOn := some r.2.1 } :=
      .quiet (h.noAnswer.trans (.act _ (by simp))) rfl rfl
    dsimp only
    split
    · exact stopForEvents_deals.after Deals.closed
        (hoffered.trans (Deals.closed.act _ (by simp) rfl rfl (.refl _)))
    · exact hoffered

theorem inductInstance_deals {root : EventOperator} {env : List String} :
    Within (Deals []) sys job (inductInstance x sys job root env) := by
  unfold inductInstance Within
  rw [sat_bind]
  refine takeStartEnv_deals.imp fun r₁ h₁ => ?_
  rw [sat_bind]
  refine blockOnEvents_deals.imp fun r₂ h₂ => ?_
  exact changeGoalIfOther_deals.after Deals.closed (h₁.trans h₂)

/-! ## Every input -/

/-- A call on a job deals once with the request that it is, if it is one. -/
theorem jobStep_deals {i : Input} (hrest : job.state.spawning? = false)
    (hi : ∀ sys', i ≠ .elsewhere sys') :
    Sat (jobStep x sys job i) (fun r => Deals i.request?.toList sys job r.1 r.2.job)
      (fun _ => True) := by
  cases i with
  | changeGoal goal => exact jobChangeGoal_within Deals.closed sys job goal
  | start | stop | restart | classStart | classStop | classRestart => exact jobRequest_deals rfl
  | stopEvent => exact handleStopOn_deals
  | induct => exact inductInstance_deals
  | elsewhere sys' => exact absurd rfl (hi sys')
  | blockerFinished | childError | childClosed | childEvent | readyText | killTimer =>
    exact notification_within Deals.closed hrest trivial

end

end Startup
