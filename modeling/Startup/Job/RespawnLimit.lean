import Startup.Job.Exits
import Startup.Job.Keeping
import Startup.Lib.Window

/-!
# The respawn limit

`job_process_catch_runaway` counts the deaths of the main process of a job in
windows of time: a death `respawn_interval` or more after the opening of the
window opens a new one.

* `jobStep_limiter`: nothing but the death of a main process that may be respawned
  touches the counter, and that counts one arrival (`Lib.Window.place`).
* `timed_counted`: so in every run the counter has seen the deaths of the job.
* `respawnLimit_kept`: the respawns of a job are bounded in every stretch of time
  in every run in which no death opens a window while a respawn is recent; where one
  does, deaths at that moment break the bound.  A job whose deaths are rare enough is
  never stopped by the limit.
-/

namespace Startup

open Lib

variable {x : Host} {sys : Sys} {job : Job}

/-! ## What leaves the counter alone -/

/-- The class of a job and the counter of its respawns. -/
def Job.limiter (job : Job) : JobClass × Int × Int :=
  (job.cls, job.respawnTime, job.respawnCount)

variable {l : JobClass × Int × Int}

/-- Every job that the call leaves has this class and this counter. -/
def Limits (l : JobClass × Int × Int) (m : Except Fault (Sys × JobRef)) : Prop :=
  Sat m (fun r => r.2.All fun j => j.limiter = l) (fun _ => True)

/-- The same for a call that does not free the job. -/
def LimitsJob (l : JobClass × Int × Int) (m : Except Fault (Sys × Job)) : Prop :=
  Sat m (fun r => r.2.limiter = l) (fun _ => True)

theorem LimitsJob.bind {m : Except Fault (Sys × Job)} {k : Sys × Job → Except Fault (Sys × JobRef)}
    (h : LimitsJob l m) (hk : ∀ sys job, job.limiter = l → Limits l (k (sys, job))) :
    Limits l (m >>= k) := by
  rw [Limits, sat_bind]
  exact Sat.imp h fun r hr => hk r.1 r.2 hr

theorem Limits.bind {m : Except Fault (Sys × JobRef)}
    {k : Sys × JobRef → Except Fault (Sys × JobRef)} (h : Limits l m)
    (hk : ∀ sys ref, ref.All (fun j => j.limiter = l) → Limits l (k (sys, ref))) :
    Limits l (m >>= k) := by
  rw [Limits, sat_bind]
  exact Sat.imp h fun r hr => hk r.1 r.2 hr

theorem Limits.get {fn : SourceFn} {ref : JobRef} {k : Job → Except Fault (Sys × JobRef)}
    (h : ref.All fun j => j.limiter = l) (hk : ∀ job, job.limiter = l → Limits l (k job)) :
    Limits l (ref.get fn >>= k) := by
  cases ref with
  | live job => exact hk job h
  | freed job => trivial

theorem Limits.any {α : Type} {m : Except Fault α} {k : α → Except Fault (Sys × JobRef)}
    (hk : ∀ a, Limits l (k a)) : Limits l (m >>= k) := by
  rw [Limits, sat_bind]
  exact (sat_true (m := m)).imp fun a _ => hk a

theorem Limits.of_ok {m : Except Fault (Sys × JobRef)} {r : Sys × JobRef} (h : Limits l m)
    (hm : m = .ok r) : r.2.All fun j => j.limiter = l := by
  subst hm
  exact h

theorem jobFailed_limiter {p : Option ProcessType} {status : Int} (h : job.limiter = l) :
    LimitsJob l (jobFailed sys job p status) := by
  refine jobFailed_sat.mono (fun r hr => ?_) fun _ _ => trivial
  obtain ⟨sys', job'⟩ := r
  cases hr with
  | already => exact h
  | now => exact h

theorem jobChangeState_limiter {state : JobState} (h : job.limiter = l) :
    Limits l (jobChangeState x sys job state) := by
  refine (jobChangeState_rule (I := fun _ job _ => job.limiter = l) (F := fun _ _ => True) ?_
    (fun _ _ _ _ _ _ _ _ => trivial) h).imp ?_
  · intro sys job state pass h _ _ hpass
    cases hpass with
    | waiting => trivial
    | _ => exact h
  · intro r hr
    obtain ⟨sys, job | job⟩ := r
    · exact hr.choose_spec.1
    · trivial

theorem jobNextState_limiter (job : Job) :
    Sat (jobNextState job) (fun r => r.1.limiter = job.limiter) (fun _ => True) := by
  unfold jobNextState
  cases job.state <;> cases job.goal <;> try trivial
  case running.stop =>
    dsimp only
    split <;> rfl

theorem jobAdvance_limiter (h : job.limiter = l) : Limits l (jobAdvance x sys job) := by
  rw [Limits, jobAdvance, sat_bind]
  exact (jobNextState_limiter job).imp fun r hr => jobChangeState_limiter (hr.trans h)

theorem jobChangeGoal_limiter {goal : JobGoal} (h : job.limiter = l) :
    Limits l (jobChangeGoal x sys job goal) := by
  rw [jobChangeGoal_eq]
  split
  · exact jobAdvance_limiter h
  · exact h

/-! ### Notifications -/

theorem stopOrAdvance_limiter {stop state : Bool} (h : job.limiter = l) :
    Limits l (stopOrAdvance x sys job stop state) := by
  have hend : ∀ (b : Bool) (sys : Sys) (j : Job), j.limiter = l → Limits l
      (if b then .ok (sys, .live j) else if state then jobAdvance x sys j
        else .ok (sys, .live j)) := by
    intro b sys j hj
    split
    · exact hj
    · split
      · exact jobAdvance_limiter hj
      · exact hj
  unfold stopOrAdvance
  cases stop with
  | false => exact hend false sys job h
  | true =>
    exact (jobChangeGoal_limiter h).bind fun _ _ href => Limits.get href fun j hj => hend _ _ j hj

theorem afterTerminated_limiter {p : ProcessType} {status : Int} {stateOnly : Bool} {v : Verdict}
    (h : job.limiter = l) : Limits l (afterTerminated x sys job p status stateOnly v) := by
  have hclear : (if stateOnly then job.cancelKill else job.cancelKill.setPid p 0).limiter = l := by
    unfold Job.cancelKill
    split <;> split <;> exact h
  rw [afterTerminated_eq]
  refine LimitsJob.bind ?_ fun _ _ hj => Limits.any fun _ => stopOrAdvance_limiter hj
  split
  · exact jobFailed_limiter hclear
  · exact hclear

/-- The end of the main process is one after which the job may be respawned, so
that it counts for the respawn limit. -/
def Job.mayRespawn (x : Host) (job : Job) (status : Int) : Prop :=
  job.state.spawning? = false ∧ ¬ job.asked ∧ mainFailed job.cls status = true ∧
    job.cls.respawn = true ∧ x.disableRespawn = false

instance (x : Host) (job : Job) (status : Int) : Decidable (job.mayRespawn x status) := by
  unfold Job.mayRespawn
  infer_instance

/-- The counter after the end of the main process. -/
def limiterAfter (x : Host) (job : Job) (status : Int) : JobClass × Int × Int :=
  if job.mayRespawn x status then (jobProcessCatchRunaway x job).1.limiter else job.limiter

theorem Fails.limiter {sys' : Sys} {job' : Job} {p : Option ProcessType} {status : Int}
    (h : Fails sys job p status sys' job') : job'.limiter = job.limiter := by
  cases h with
  | already => rfl
  | now => rfl

theorem MainEnds.limiter {status : Int} {sys' : Sys} {ref : JobRef} {v : Verdict}
    (hrest : job.state.spawning? = false)
    (h : MainEnds x sys job (mainFailed job.cls status) sys' ref v) :
    ref.All fun j => j.limiter = limiterAfter x job status := by
  unfold limiterAfter
  cases h with
  | asked state hasked =>
    rw [if_neg fun hno => hno.2.1 hasked]
    rfl
  | stops hasked hcond =>
    rw [if_neg fun hno => hcond hno.2.2]
    rfl
  | runaway hasked hfailed hrespawn _ fail =>
    rw [if_pos ⟨hrest, hasked, hfailed, hrespawn⟩]
    exact fail.limiter
  | later hasked hresp =>
    rw [if_pos ⟨hrest, hasked, hresp.2.1, hresp.2.2.1, hresp.2.2.2.1⟩]
    rfl
  | fromSpawned hresp hs change =>
    have hasked : ¬ job.asked := by simp [Job.asked, hs, hresp.1]
    rw [if_pos ⟨hrest, hasked, hresp.2.1, hresp.2.2.1, hresp.2.2.2.1⟩]
    have hchange : Limits (jobProcessCatchRunaway x job).1.limiter
        (jobChangeState x sys (jobProcessCatchRunaway x job).1 .stopping) :=
      jobChangeState_limiter rfl
    exact hchange.of_ok change
  | respawn hasked hresp =>
    rw [if_pos ⟨hrest, hasked, hresp.2.1, hresp.2.2.1, hresp.2.2.2.1⟩]
    rfl

theorem jobProcessTerminated_noted {p : ProcessType} {status : Int} {stateOnly : Bool}
    (hs : job.state.spawning? = true) :
    Limits job.limiter (jobProcessTerminated x sys job p status stateOnly) := by
  unfold jobProcessTerminated
  rw [if_pos hs]
  split
  · trivial
  · rw [Limits, sat_bind]
    exact (jobNextState_limiter _).imp fun r hr => hr

/-- The end of a main process counts where the job may be respawned, and nothing
else of `job_process_terminated` touches the counter. -/
theorem jobProcessTerminated_limiter {p : ProcessType} {status : Int} :
    Limits (if p = .main then limiterAfter x job status else job.limiter)
      (jobProcessTerminated x sys job p status false) := by
  by_cases hs : job.state.spawning? = true
  · have hno : limiterAfter x job status = job.limiter :=
      if_neg fun h => absurd (hs.symm.trans h.1) (by simp)
    rw [hno, ite_self]
    exact jobProcessTerminated_noted hs
  · have hrest : job.state.spawning? = false := by simpa using hs
    unfold jobProcessTerminated
    rw [if_neg hs, Limits, sat_bind, sat_iff]
    refine ⟨fun r hr => ?_, fun _ _ => trivial⟩
    obtain ⟨sys', ref, v⟩ := r
    by_cases hp : p = .main
    · subst hp
      rw [if_pos rfl]
      exact Limits.get ((mainTerminated_decides hr).limiter hrest) fun j hj =>
        afterTerminated_limiter hj
    · rw [if_neg hp]
      obtain ⟨-, failed, heq, -⟩ := processTerminated_decides hp hr
      cases heq
      exact afterTerminated_limiter rfl

theorem jobChildErrorHandler_limiter {p : ProcessType} (h : job.limiter = l) :
    Limits l (jobChildErrorHandler x sys job p) := by
  have hclear : (job.setPid p 0).limiter = l := h
  have hfail : ∀ p', Limits l (failAndAdvance x sys (job.setPid p 0) p') := fun p' =>
    (jobFailed_limiter hclear).bind fun _ _ hj => (jobChangeGoal_limiter hj).bind fun _ _ href =>
      Limits.get href fun _ hj => jobAdvance_limiter hj
  cases p with
  | security => exact (jobFailed_limiter hclear).bind fun _ _ hj => jobChangeGoal_limiter hj
  | preStart | main | postStop => exact hfail _
  | postStart | preStop => exact jobAdvance_limiter hclear

theorem jobProcessChildReader_limiter {pid : Pid} {permanent : Bool} (h : job.limiter = l) :
    Limits l (jobProcessChildReader x sys job pid permanent) := by
  unfold jobProcessChildReader
  split
  · trivial
  · split
    · exact h
    · refine Limits.bind (jobChildErrorHandler_limiter h) fun _ ref href => ?_
      refine Limits.get href fun j hj => ?_
      exact hj

theorem jobProcessCloseHandler_limiter {pid : Pid} (h : job.limiter = l) :
    Limits l (jobProcessCloseHandler x sys job pid) := by
  unfold jobProcessCloseHandler
  split
  · trivial
  rename_i data _
  split
  · exact h
  have hend : ∀ (sys : Sys) (j : Job), j.limiter = l → Limits l
      (if j.state.spawning? then jobProcessTerminated x sys j data.process data.status true
        else .ok (sys, .live j)) := by
    intro sys j hj
    split
    · rename_i hs
      exact hj ▸ jobProcessTerminated_noted hs
    · exact hj
  dsimp only
  split
  · refine Limits.bind (jobAdvance_limiter h) fun sys ref href => ?_
    exact Limits.get href fun j hj => hend sys j hj
  · exact hend sys _ h

theorem jobProcessTraceNew_limiter {p : ProcessType} (h : job.limiter = l) :
    Limits l (jobProcessTraceNew x sys job p) := by
  refine Limits.any fun _ => ?_
  split
  · exact h
  · split <;> exact h

theorem jobProcessTraceNewChild_limiter {p : ProcessType} (h : job.limiter = l) :
    Limits l (jobProcessTraceNewChild x sys job p) := by
  refine Limits.any fun _ => ?_
  split
  · exact h
  · dsimp only
    split
    · exact jobAdvance_limiter h
    · exact jobProcessTraceNew_limiter h

/-- The input is the end of the main process, and one that counts for the respawn
limit. -/
def Job.dies (x : Host) (job : Job) : Input → Prop
  | .childEvent .main (.exited status) => job.mayRespawn x status
  | .childEvent .main (.killed signal) | .childEvent .main (.dumped signal) =>
    job.mayRespawn x (signal * 256)
  | _ => False

instance (x : Host) (job : Job) (i : Input) : Decidable (job.dies x i) := by
  unfold Job.dies
  split <;> infer_instance

/-- The counter after an input. -/
def limiterNext (x : Host) (job : Job) (i : Input) : JobClass × Int × Int :=
  if job.dies x i then (jobProcessCatchRunaway x job).1.limiter else job.limiter

theorem limiterNext_end (status : Int) {p : ProcessType} {event : ChildEvent}
    (h : job.dies x (.childEvent p event) ↔ p = .main ∧ job.mayRespawn x status) :
    limiterNext x job (.childEvent p event) =
      if p = .main then limiterAfter x job status else job.limiter := by
  unfold limiterNext limiterAfter
  by_cases hd : p = .main ∧ job.mayRespawn x status
  · rw [if_pos (h.mpr hd), if_pos hd.1, if_pos hd.2]
  · rw [if_neg fun hdies => hd (h.mp hdies)]
    split
    · rename_i hp
      rw [if_neg fun hm => hd ⟨hp, hm⟩]
    · rfl

theorem limiterNext_same {i : Input} (h : ¬ job.dies x i) : limiterNext x job i = job.limiter :=
  if_neg h

theorem jobProcessHandler_limiter {p : ProcessType} {event : ChildEvent} :
    Limits (limiterNext x job (.childEvent p event)) (jobProcessHandler x sys job p event) := by
  cases event with
  | exited status =>
    rw [limiterNext_end status (by cases p <;> simp [Job.dies])]
    exact jobProcessTerminated_limiter
  | killed signal | dumped signal =>
    rw [limiterNext_end (signal * 256) (by cases p <;> simp [Job.dies])]
    exact jobProcessTerminated_limiter
  | continued =>
    rw [limiterNext_same (by cases p <;> simp [Job.dies])]
    rfl
  | stopped signal =>
    rw [limiterNext_same (by cases p <;> simp [Job.dies])]
    dsimp only [jobProcessHandler, jobProcessStopped]
    split
    · split
      · rfl
      · split
        · exact jobAdvance_limiter rfl
        · rfl
    · rfl
  | trapped signal =>
    rw [limiterNext_same (by cases p <;> simp [Job.dies])]
    dsimp only [jobProcessHandler, jobProcessTraceSignal]
    split
    · exact jobProcessTraceNew_limiter rfl
    · split
      · exact jobProcessTraceNewChild_limiter rfl
      · split <;> rfl
  | ptraceFork =>
    rw [limiterNext_same (by cases p <;> simp [Job.dies])]
    dsimp only [jobProcessHandler, jobProcessTraceFork]
    split
    · rfl
    · split
      · rfl
      · split
        · rfl
        · exact jobProcessTraceNewChild_limiter rfl
  | ptraceExec =>
    rw [limiterNext_same (by cases p <;> simp [Job.dies])]
    dsimp only [jobProcessHandler, jobProcessTraceExec]
    split
    · rfl
    · split
      · exact jobAdvance_limiter rfl
      · rfl

/-! ### Every input -/

theorem limiter_kept : Kept (JobRef.All fun j => j.limiter = l) (fun _ => True) where
  given _ _ _ _ _ h := h
  changeGoal h := jobChangeGoal_limiter h
  ofQueue _ := trivial
  freed _ := trivial

/-- Nothing but the end of the main process touches the counter. -/
theorem jobStep_limiter {i : Input} : Limits (limiterNext x job i) (jobStep x sys job i) := by
  cases i with
  | blockerFinished => exact jobAdvance_limiter rfl
  | childError => exact jobProcessChildReader_limiter rfl
  | childClosed => exact jobProcessCloseHandler_limiter rfl
  | childEvent => exact jobProcessHandler_limiter
  | readyText pid buf =>
    dsimp only [jobStep, jobProcessReadyfdReader]
    split
    · exact jobAdvance_limiter rfl
    · rfl
  | killTimer =>
    refine Limits.any fun _ => ?_
    split
    · trivial
    · exact Limits.any fun _ => rfl
  | _ => exact request_keeps limiter_kept trivial (show job.limiter = job.limiter from rfl)

/-! ## Runs with a clock -/

/-- A run together with the deaths of the main process that counted for the
respawn limit, latest first, and the time of the latest step. -/
structure Timed where
  sys : Sys
  ref : JobRef
  deaths : List Window.Arrival
  clock : Int

/-- The arrival that a death is for the respawn counter. -/
def arrivalOf (x : Host) (job : Job) : Window.Arrival :=
  let place := Window.place job.cls.respawnInterval x.now job.respawnTime job.respawnCount
  ⟨x.now, place.1, place.2⟩

/-- A step, and the death that comes with it. -/
def timedStep (s : Timed) (i : Host × Input) : Except Fault Timed := do
  let (sys, ref) ← step (s.sys, s.ref) i
  let deaths := match s.ref with
    | .live job => if job.dies i.1 i.2 then [arrivalOf i.1 job] else []
    | .freed _ => []
  .ok ⟨sys, ref, deaths ++ s.deaths, i.1.now⟩

/-- The run starts with a new job of the class, which nothing has happened to. -/
def TimedStart (cls : JobClass) (s : Timed) : Prop :=
  (∃ id classId name stopOn, s.ref = .live (jobNew id classId cls name stopOn)) ∧
    s.deaths = [] ∧ 0 ≤ s.clock

/-- The clock does not run backwards. -/
def TimedOk (s : Timed) (i : Host × Input) : Prop :=
  Admits Always (s.sys, s.ref) i ∧ s.clock ≤ i.1.now

/-- The states of the runs of a job of a class. -/
abbrev TimedReached (cls : JobClass) : Timed → Prop :=
  Reach (TimedStart cls) TimedOk timedStep

/-- What the counter of the job has seen, of which `Q` holds. -/
structure Counts (Q : List Window.Arrival → Int → Prop) (cls : JobClass) (s : Timed) : Prop where
  clock : 0 ≤ s.clock
  past : ∀ a ∈ s.deaths, a.time ≤ s.clock
  counted : ∃ opening number, Window.Counted cls.respawnInterval s.deaths opening number ∧
    Q s.deaths opening ∧ s.ref.All fun job => job.limiter = (cls, opening, number)

theorem jobProcessCatchRunaway_limiter (x : Host) (job : Job)
    (hlimit : job.cls.respawnLimit ≠ 0 ∧ job.cls.respawnInterval ≠ 0) :
    (jobProcessCatchRunaway x job).1.limiter =
      (job.cls, (arrivalOf x job).opening, (arrivalOf x job).number) := by
  unfold jobProcessCatchRunaway arrivalOf Window.place
  rw [if_pos hlimit]
  split <;> simp [Job.limiter, *]

/-- The counter has seen the deaths of the job.  `Q` holds of them where each death keeps it. -/
theorem timed_counts {Q : List Window.Arrival → Int → Prop} {ok : Timed → Host × Input → Prop}
    {cls : JobClass} {s : Timed} (hinterval : cls.respawnInterval ≠ 0)
    (hlimit : cls.respawnLimit ≠ 0) (htimed : ∀ s i, ok s i → TimedOk s i) (hnil : Q [] 0)
    (hdeath : ∀ s i job, ok s i → s.ref = .live job → job.dies i.1 i.2 → job.cls = cls →
      (∀ a ∈ s.deaths, a.time ≤ i.1.now) → 0 ≤ i.1.now →
      Window.Counted cls.respawnInterval s.deaths job.respawnTime job.respawnCount →
      Q s.deaths job.respawnTime →
      Q (arrivalOf i.1 job :: s.deaths) (arrivalOf i.1 job).opening)
    (h : Reach (TimedStart cls) ok timedStep s) : Counts Q cls s := by
  refine Reach.invariant ?_ ?_ h
  · intro s hs
    obtain ⟨⟨id, classId, name, stopOn, href⟩, hdeaths, hclock⟩ := hs
    refine ⟨hclock, by simp [hdeaths], 0, 0, ?_, ?_, ?_⟩
    · rw [hdeaths]
      exact .nil
    · rw [hdeaths]
      exact hnil
    · rw [href]
      rfl
  · intro s i hI hok
    obtain ⟨x, i⟩ := i
    obtain ⟨sys, ref, deaths, clock⟩ := s
    obtain ⟨hclock, hpast, opening, number, hcounted, hQ, hlimiter⟩ := hI
    have hnow : clock ≤ x.now := (htimed _ _ hok).2
    have hlater : ∀ a ∈ deaths, a.time ≤ x.now := fun a ha => Int.le_trans (hpast a ha) hnow
    have hnonneg : 0 ≤ x.now := Int.le_trans hclock hnow
    cases ref with
    | freed job => exact ⟨hnonneg, hlater, opening, number, hcounted, hQ, trivial⟩
    | live job =>
      have hjob : job.limiter = (cls, opening, number) := hlimiter
      have hcls : job.cls = cls := congrArg Prod.fst hjob
      have hopening : job.respawnTime = opening := congrArg (fun l => l.2.1) hjob
      have hnumber : job.respawnCount = number := congrArg (fun l => l.2.2) hjob
      have hstep : Limits (limiterNext x job i) (jobStep x sys job i) := jobStep_limiter
      rw [timedStep, sat_bind]
      refine Sat.imp hstep fun r hr => ?_
      obtain ⟨sys', ref'⟩ := r
      by_cases hd : job.dies x i
      · have harrival : arrivalOf x job = ⟨x.now, _, _⟩ := rfl
        rw [limiterNext, if_pos hd, jobProcessCatchRunaway_limiter x job (by
          rw [hcls]
          exact ⟨hlimit, hinterval⟩), hcls] at hr
        have harrive := Window.Counted.arrive x.now hcounted hlater hnonneg
        have hkept := hdeath _ _ job hok rfl hd hcls hlater hnonneg
          (by rw [hopening, hnumber]; exact hcounted) (by rw [hopening]; exact hQ)
        refine ⟨hnonneg, ?_, _, _, ?_, ?_, hr⟩
        · intro a ha
          simp only [if_pos hd] at ha
          rcases List.mem_cons.mp ha with rfl | ha
          · exact Int.le_refl _
          · exact hlater a ha
        · simp only [if_pos hd]
          rw [← hcls, ← hopening, ← hnumber] at harrive
          exact hcls ▸ harrive
        · simp only [if_pos hd]
          exact hkept
      · rw [limiterNext_same hd, hjob] at hr
        refine ⟨hnonneg, ?_, opening, number, ?_, ?_, hr⟩
        · simpa only [if_neg hd, List.nil_append] using hlater
        · simpa only [if_neg hd, List.nil_append] using hcounted
        · simpa only [if_neg hd, List.nil_append] using hQ

/-! ## The limit -/

/-- What the respawn limit promises of the deaths of a job: no stretch of
`interval` seconds has more than `limit` respawns, a further death is not
respawned, and where no stretch has more than `limit` deaths all are. -/
structure LimitKept (limit interval : Int) (deaths : List Window.Arrival) : Prop where
  bounded : Window.Bounded limit interval deaths
  refusing : Window.Refusing limit interval deaths
  spared : (∀ start, ((deaths.countP fun a =>
    decide (start ≤ a.time ∧ a.time < start + interval) : Nat) : Int) ≤ limit) →
    ∀ a ∈ deaths, a.admitted limit = true

/-- A death that the counter admits is followed by a respawn; after another one
the job is stopped and has failed. -/
def DeathDecides (limit : Int) (i : Host × Input) (s s' : Timed) (job : Job) : Prop :=
  ∃ a sys₁ job₁, ∃ advance : Advance, s'.deaths = a :: s.deaths ∧ a.time = i.1.now ∧
    Cleared job .main job₁ ∧ advance.run i.1 sys₁ job₁ = .ok (s'.sys, s'.ref) ∧
    (a.admitted limit = true → job₁.goal ≠ .stop) ∧
    (a.admitted limit = false → job₁.goal = .stop ∧ job₁.failed = true)

theorem tooFast_iff {job : Job} (hlimit : 0 < job.cls.respawnLimit)
    (hinterval : 0 < job.cls.respawnInterval) :
    TooFast x job ↔ (arrivalOf x job).admitted job.cls.respawnLimit = false := by
  unfold TooFast arrivalOf Window.place Window.Arrival.admitted
  simp only [decide_eq_false_iff_not]
  split
  · simp only
    omega
  · simp only
    omega

theorem Job.dies_cases {x : Host} {job : Job} {i : Input} (h : job.dies x i) :
    ∃ event : ChildEvent, i = .childEvent .main event ∧ job.mayRespawn x event.status ∧
      ∀ sys, jobProcessHandler x sys job .main event =
        jobProcessTerminated x (sys.act (.exited (job.pid .main))) job .main event.status false := by
  unfold Job.dies at h
  split at h
  · exact ⟨_, rfl, h, fun _ => rfl⟩
  · exact ⟨_, rfl, h, fun _ => rfl⟩
  · exact ⟨_, rfl, h, fun _ => rfl⟩
  · exact h.elim

theorem deathDecides {s s' : Timed} {i : Host × Input} {job : Job}
    (hlimit : 0 < job.cls.respawnLimit) (hinterval : 0 < job.cls.respawnInterval)
    (href : s.ref = .live job) (hdies : job.dies i.1 i.2) (h : timedStep s i = .ok s') :
    DeathDecides job.cls.respawnLimit i s s' job := by
  obtain ⟨x, i⟩ := i
  obtain ⟨sys, ref, deaths, clock⟩ := s
  cases href
  obtain ⟨⟨sys', ref'⟩, hstep, h⟩ := bind_eq_ok.mp h
  cases h
  obtain ⟨event, rfl, ⟨hrest, hasked, hfailed, hrespawn⟩, hhandler⟩ := Job.dies_cases hdies
  have hterm := (hhandler sys).symm.trans hstep
  unfold jobProcessTerminated at hterm
  rw [if_neg (by simp [hrest])] at hterm
  obtain ⟨⟨sys₀, ref₀, v⟩, hmain, hafter⟩ := bind_eq_ok.mp hterm
  obtain ⟨job₀, href₀, hafter⟩ := bind_eq_ok.mp hafter
  cases ref₀ with
  | freed => cases href₀
  | live =>
    cases href₀
    obtain ⟨sys₁, job₁, advance, hclass, hrun⟩ :=
      (mainTerminated_decides hmain).classified hrest hafter
    have hgoal := hclass.respawned rfl hasked
    have hfail := hclass.failed rfl hasked
    have hfast := tooFast_iff (x := x) hlimit hinterval
    have hresp : Respawns x job (mainFailed job.cls event.status = true) ↔ ¬ TooFast x job := by
      constructor
      · intro hresp
        exact hresp.2.2.2.2
      · intro hfast
        exact ⟨(Job.asked_running hasked).1, hfailed, hrespawn.1, hrespawn.2, hfast⟩
    refine ⟨arrivalOf x job, sys₁, job₁, advance, ?_, rfl, hclass.toCleared, hrun, ?_, ?_⟩
    · simp [if_pos hdies]
    · intro hadmitted
      apply hgoal.mpr
      rw [hresp, hfast, hadmitted]
      simp
    · intro hrefused
      have hno : ¬ Respawns x job (mainFailed job.cls event.status = true) := by
        rw [hresp, not_not, hfast]
        exact hrefused
      exact ⟨by simpa [hno] using hgoal, hfail.mpr (.inr ⟨hfailed, hno⟩)⟩

/-- No death comes `respawn_interval` or more after `respawn_time` while a respawn is less than
`respawn_interval` old. -/
def RespawnOk (s : Timed) (i : Host × Input) : Prop :=
  TimedOk s i ∧ ∀ job, s.ref = .live job → job.dies i.1 i.2 →
    ¬ Window.Forgets job.cls.respawnLimit job.cls.respawnInterval job.respawnTime i.1.now s.deaths

/-- The states of the runs in which it is so. -/
abbrev RespawnReached (cls : JobClass) : Timed → Prop :=
  Reach (TimedStart cls) RespawnOk timedStep

/-- In such a run the counter has forgotten no recent respawn. -/
theorem respawn_remembers {cls : JobClass} {s : Timed} (hlimit : 0 < cls.respawnLimit)
    (hinterval : 0 < cls.respawnInterval) (h : RespawnReached cls s) :
    Counts (Window.Remembers cls.respawnLimit cls.respawnInterval) cls s := by
  refine timed_counts (by omega) (by omega) (fun s i hok => hok.1) ?_ ?_ h
  · exact ⟨fun a ha => absurd ha List.not_mem_nil, fun a older hs => by simp at hs⟩
  · rintro s i job hok href hdies rfl hlater hnonneg hcounted hremembers
    exact hcounted.remembers_arrive hinterval hremembers hlater hnonneg (hok.2 job href hdies)

/-- **The respawn limit.**  It is kept in every run in which no death opens a window while a
respawn is less than the interval old.  Of every run: where a death would, deaths at that moment
break the limit; a death that the counter admits is respawned and another one stops the job as
failed; and a job whose deaths are rare enough is never stopped by the limit. -/
theorem respawnLimit_kept {cls : JobClass} {s : Timed} (hlimit : 0 < cls.respawnLimit)
    (hinterval : 0 < cls.respawnInterval) (h : TimedReached cls s) :
    (RespawnReached cls s → LimitKept cls.respawnLimit cls.respawnInterval s.deaths) ∧
    (∀ now job, s.clock ≤ now → s.ref = .live job →
      Window.Forgets cls.respawnLimit cls.respawnInterval job.respawnTime now s.deaths →
      ∃ more opening number, (∀ a ∈ more, a.time = now) ∧
        Window.Counted cls.respawnInterval (more ++ s.deaths) opening number ∧
        ¬ LimitKept cls.respawnLimit cls.respawnInterval (more ++ s.deaths)) ∧
    (∀ i s' job, s.ref = .live job → job.dies i.1 i.2 → timedStep s i = .ok s' →
      DeathDecides cls.respawnLimit i s s' job) ∧
    ((∀ start, ((s.deaths.countP fun a => decide (start ≤ a.time ∧
        a.time < start + cls.respawnInterval) : Nat) : Int) ≤ cls.respawnLimit) →
      ∀ a ∈ s.deaths, a.admitted cls.respawnLimit = true) := by
  have hcounts : Counts (fun _ _ => True) cls s :=
    timed_counts (by omega) (by omega) (fun _ _ hok => hok) trivial
      (fun _ _ _ _ _ _ _ _ _ _ _ => trivial) h
  obtain ⟨hclock, hpast, opening, number, hcounted, -, hlimiter⟩ := hcounts
  refine ⟨fun hrun => ?_, fun now job hnow href hforgets => ?_, fun i s' job href hdies hstep => ?_,
    hcounted.all_admitted hinterval⟩
  · obtain ⟨-, -, opening', number', hcounted', hremembers, -⟩ :=
      respawn_remembers hlimit hinterval hrun
    obtain ⟨hbounded, hrefusing⟩ := hcounted'.bounded (by omega) hinterval hremembers
    exact ⟨hbounded, hrefusing, hcounted.all_admitted hinterval⟩
  · rw [href] at hlimiter
    have hopening : job.respawnTime = opening := congrArg (fun l => l.2.1) hlimiter
    rw [hopening] at hforgets
    obtain ⟨more, opening', number', hmore, htime, hbroken⟩ := hcounted.breaks hlimit hinterval
      (fun a ha => Int.le_trans (hpast a ha) hnow) (Int.le_trans hclock hnow) hforgets
    exact ⟨more, opening', number', htime, hmore, fun hkept => hbroken hkept.bounded⟩
  · rw [href] at hlimiter
    have hcls : job.cls = cls := congrArg Prod.fst hlimiter
    subst hcls
    exact deathDecides hlimit hinterval href hdies hstep

/-! ### Deaths on both sides of an opening -/

/-- A class that may be respawned twice in ten seconds. -/
def twiceInTen : JobClass :=
  { plainClass [.main] with respawn := true, respawnLimit := 2, respawnInterval := 10 }

/-- The plain host at a time. -/
def hostAt (now : Int) : Host :=
  { plainHost with now }

theorem TimedReached.next {cls : JobClass} {sys : Sys} {job : Job} {deaths : List Window.Arrival}
    {clock : Int} (h : TimedReached cls ⟨sys, .live job, deaths, clock⟩) (now : Int) (i : Input)
    (hi : Enabled sys job i ∧ clock ≤ now) {s' : Timed}
    (hs : timedStep ⟨sys, .live job, deaths, clock⟩ (hostAt now, i) = .ok s') :
    TimedReached cls s' :=
  .step (i := (hostAt now, i)) h ⟨⟨hi.1, trivial⟩, hi.2⟩ hs

/-- A new job of that class, one second after the start of the clock. -/
def newTimed : Timed :=
  ⟨⟨[], 0, 0, []⟩, .live (jobNew 1 1 twiceInTen "" none), [], 1⟩

theorem timedReached_newTimed : TimedReached twiceInTen newTimed :=
  .init ⟨⟨1, 1, "", none, rfl⟩, rfl, by simp [newTimed]⟩

theorem RespawnReached.next {cls : JobClass} {sys : Sys} {job : Job}
    {deaths : List Window.Arrival} {clock : Int}
    (h : RespawnReached cls ⟨sys, .live job, deaths, clock⟩) (now : Int) (i : Input)
    (hi : Enabled sys job i ∧ clock ≤ now)
    (hf : ¬ Window.Forgets job.cls.respawnLimit job.cls.respawnInterval job.respawnTime now deaths)
    {s' : Timed} (hs : timedStep ⟨sys, .live job, deaths, clock⟩ (hostAt now, i) = .ok s') :
    RespawnReached cls s' := by
  refine .step (i := (hostAt now, i)) h ⟨⟨⟨hi.1, trivial⟩, hi.2⟩, fun job' href _ => ?_⟩ hs
  cases href
  exact hf

/-- Deaths at 8 and at 18 seconds, where two in ten are allowed: the second opens a window, and
the first is old enough. -/
theorem respawnLimit_kept_twice :
    ∃ s, RespawnReached twiceInTen s ∧ s.deaths = [⟨18, 18, 1⟩, ⟨8, 0, 1⟩] ∧
      LimitKept 2 10 s.deaths := by
  have hnone : ∀ now opening, ¬ Window.Forgets 2 10 opening now [] := by
    rintro now opening ⟨-, a, ha, -⟩
    cases ha
  have h₀ : RespawnReached twiceInTen newTimed :=
    .init ⟨⟨1, 1, "", none, rfl⟩, rfl, by simp [newTimed]⟩
  have h₁ := h₀.next 1 (.changeGoal .start) ⟨by simp [Enabled], by simp⟩ (hnone _ _) rfl
  have h₂ := h₁.next 1 .blockerFinished ⟨rfl, by simp [hostAt]⟩ (hnone _ _) rfl
  have h₃ := h₂.next 1 (.childClosed 1) ⟨rfl, by simp [hostAt]⟩ (hnone _ _) rfl
  have h₄ := h₃.next 8 (.childEvent .main (.exited 1)) ⟨rfl, by simp [hostAt]⟩ (hnone _ _) rfl
  have hinside : ¬ Window.Forgets 2 10 0 8 [⟨8, 0, 1⟩] := fun h => absurd h.1 (by decide)
  have h₅ := h₄.next 8 .blockerFinished ⟨rfl, by simp [hostAt]⟩ hinside rfl
  have h₆ := h₅.next 8 .blockerFinished ⟨rfl, by simp [hostAt]⟩ hinside rfl
  have h₇ := h₆.next 8 (.childClosed 2) ⟨rfl, by simp [hostAt]⟩ hinside rfl
  have hold : ¬ Window.Forgets 2 10 0 18 [⟨8, 0, 1⟩] := by
    rintro ⟨-, a, ha, -, hrecent⟩
    rw [List.mem_singleton.mp ha] at hrecent
    exact absurd hrecent (by decide)
  have h₈ := h₇.next 18 (.childEvent .main (.exited 1)) ⟨rfl, by simp [hostAt]⟩ hold rfl
  have htimed : TimedReached twiceInTen _ := h₈.mono fun _ _ hok => hok.1
  exact ⟨_, h₈, rfl, (respawnLimit_kept (by decide) (by decide) htimed).1 h₈⟩

/-- Three respawns in three seconds, where two in ten are allowed: the third
death opens a new window, and the two before it are forgotten. -/
theorem respawns_across_opening :
    ∃ s, TimedReached twiceInTen s ∧ s.deaths = [⟨10, 10, 1⟩, ⟨9, 0, 2⟩, ⟨8, 0, 1⟩] ∧
      ¬ LimitKept twiceInTen.respawnLimit twiceInTen.respawnInterval s.deaths := by
  have h₀ := timedReached_newTimed
  have h₁ := h₀.next 1 (.changeGoal .start) ⟨by simp [Enabled], by simp⟩ rfl
  have h₂ := h₁.next 1 .blockerFinished ⟨rfl, by simp [hostAt]⟩ rfl
  have h₃ := h₂.next 1 (.childClosed 1) ⟨rfl, by simp [hostAt]⟩ rfl
  have h₄ := h₃.next 8 (.childEvent .main (.exited 1)) ⟨rfl, by simp [hostAt]⟩ rfl
  have h₅ := h₄.next 8 .blockerFinished ⟨rfl, by simp [hostAt]⟩ rfl
  have h₆ := h₅.next 8 .blockerFinished ⟨rfl, by simp [hostAt]⟩ rfl
  have h₇ := h₆.next 8 (.childClosed 2) ⟨rfl, by simp [hostAt]⟩ rfl
  have h₈ := h₇.next 9 (.childEvent .main (.exited 1)) ⟨rfl, by simp [hostAt]⟩ rfl
  have h₉ := h₈.next 9 .blockerFinished ⟨rfl, by simp [hostAt]⟩ rfl
  have k₀ := h₉.next 9 .blockerFinished ⟨rfl, by simp [hostAt]⟩ rfl
  have k₁ := k₀.next 9 (.childClosed 3) ⟨rfl, by simp [hostAt]⟩ rfl
  have k₂ := k₁.next 10 (.childEvent .main (.exited 1)) ⟨rfl, by simp [hostAt]⟩ rfl
  refine ⟨_, k₂, rfl, ?_⟩
  intro hkept
  have hmore := hkept.bounded 8
  revert hmore
  decide

end Startup
