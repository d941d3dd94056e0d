import Startup.State.Classes
import Startup.State.JobRuns

/-!
# Classes that a re-execution finds

What `job_class_deserialise` makes of a class, with its instances, in a state that
init can reach.  `export` is read back as an environment table, which needs a value
in each entry; so is `env`, where an entry may be the bare name of a variable; and
a limit of zero is taken for one that is not set.
-/

namespace Startup

open Lib

/-- The class at the address `id`, with its events at the positions `f`. -/
def ClassRecord.renamed (r : ClassRecord) (f : EventId → EventId) (id : ClassId) :
    ClassRecord where
  cls :=
    { r.cls with
      id
      startOn := r.cls.startOn.map (EventOperator.mapRefs f)
      stopOn := r.cls.stopOn.map (EventOperator.mapRefs f) }
  details := r.details
  cgroups_iff := r.cgroups_iff

/-- The class has a name, and the fields that are read back as they have been written. -/
structure ClassRecord.Steady (r : ClassRecord) : Prop where
  named : r.cls.config.name ≠ ""
  env : Restorable r.cls.config.env
  exports : Restorable r.cls.config.exports
  limits : ∀ i, r.details.limits i ≠ some ⟨0, 0⟩

theorem revivedLimit_eq_iff {limit : Option Rlimit} :
    revivedLimit limit = limit ↔ limit ≠ some ⟨0, 0⟩ := by
  cases limit with
  | none => simp [revivedLimit]
  | some r => by_cases hr : r = ⟨0, 0⟩ <;> simp [revivedLimit, hr]

theorem steady_iff {r : ClassRecord} (x : Host) (f : EventId → EventId) (id : ClassId) :
    r.Steady ↔ r.cls.config.name ≠ "" ∧ r.revived x f id = r.renamed f id := by
  constructor
  · intro h
    have henv := (environAppend_self_iff x.getenv _).mpr h.env
    have hexports := (environAppend_self_iff x.getenv _).mpr h.exports
    have hlimits : (fun i => revivedLimit (r.details.limits i)) = r.details.limits :=
      funext fun i => revivedLimit_eq_iff.mpr (h.limits i)
    refine ⟨h.named, ?_⟩
    simp only [ClassRecord.revived, ClassRecord.renamed, henv, hexports, hlimits]
  · rintro ⟨hnamed, h⟩
    refine ⟨hnamed, ?_, ?_, fun i => ?_⟩
    · exact (environAppend_self_iff x.getenv _).mp (congrArg (fun r => r.cls.config.env) h)
    · exact (environAppend_self_iff x.getenv _).mp (congrArg (fun r => r.cls.config.exports) h)
    · exact revivedLimit_eq_iff.mp (congrArg (fun r => r.details.limits i) h)

/-- The events that a job refers to are in the queue. -/
def JobQueued (sys : Sys) (job : Job) : Prop :=
  (∀ root, job.stopOn = some root → ∀ e ∈ root.refs, (sys.event? e).isSome = true) ∧
    ∀ e, job.blocker = some e → (sys.event? e).isSome = true

/-- The instances of a class are read back in their order, unless there is one with a
kill timer that cannot be set. -/
theorem jobs_restored (t : StateTexts) {sys : Sys} (x : Host)
    (parseOnSimple : String → Option EventOperator) (blocking : Job → List Json) (first : JobId) (cls : ClassState) {jobs : List Job}
    (hq : ∀ job ∈ jobs, JobQueued sys job) :
    ∃ jsons, jobSerialiseAll t sys blocking jobs = some jsons ∧ ∀ jobs',
      ((jsons.zipIdx first).mapM fun item =>
        jobDeserialise x parseOnSimple sys.events.length
          (fun name => jobNew item.2 cls.id cls.config name cls.stopOn) item.1) = .ok jobs' ↔
      (∀ job ∈ jobs, job.Resumable) ∧ jobs' = (jobs.zipIdx first).map fun p =>
        p.1.revived x sys.indexOf (jobNew p.2 cls.id cls.config p.1.name cls.stopOn) := by
  induction jobs generalizing first with
  | nil => exact ⟨[], rfl, fun jobs' => by simp [pure, Except.pure, eq_comm]⟩
  | cons job jobs ih =>
    obtain ⟨hstop, hblocker⟩ := hq job List.mem_cons_self
    obtain ⟨json, hjson, hread⟩ := job_restored t x parseOnSimple
      (fun name => jobNew first cls.id cls.config name cls.stopOn) (blocking job) hstop hblocker
    obtain ⟨jsons, hjsons, hrest⟩ := ih (first + 1) fun job hj => hq job (List.mem_cons_of_mem _ hj)
    refine ⟨json :: jsons, ?_, fun jobs' => ?_⟩
    · rw [jobSerialiseAll] at hjsons ⊢
      rw [List.mapM_cons, hjson, hjsons]
      rfl
    · rw [List.zipIdx_cons, List.mapM_cons, hread, List.forall_mem_cons, List.zipIdx_cons,
        List.map_cons]
      rcases ht : job.restoreTimer with f | timer
      · have hno : ¬ job.Resumable := by
          intro hr
          rw [restoreTimer_eq_ok.mpr ⟨rfl, hr⟩] at ht
          cases ht
        simp [bind, Except.bind, hno]
      · have hr := (restoreTimer_eq_ok.mp ht).2
        simp only [bind, Except.bind, hr, true_and]
        rcases hm : ((jsons.zipIdx (first + 1)).mapM fun item =>
          jobDeserialise x parseOnSimple sys.events.length
            (fun name => jobNew item.2 cls.id cls.config name cls.stopOn) item.1) with f | rest
        · have hno : ¬ ∀ job ∈ jobs, job.Resumable := by
            intro hall
            rw [(hrest _).mpr ⟨hall, rfl⟩] at hm
            cases hm
          simp [hm, hno]
        · obtain ⟨hall, heq⟩ := (hrest rest).mp hm
          simp only [hm, pure, Except.pure, Except.ok.injEq]
          subst heq
          exact ⟨fun h => ⟨hall, h.symm⟩, fun h => h.2.symm⟩

variable {w : World}

/-- The events that the jobs of a reached state refer to are in the queue. -/
theorem SoundWith.jobQueued {k : Slack} (hs : SoundWith k w) {job : Job}
    (hj : job ∈ w.jobs.items) : JobQueued w.sys job :=
  ⟨fun _ hr _ he => (hs.accounts.owned hj).queued hr he,
    fun e he => hs.ties.queued job.id e ((blockerOf_of_get? (Store.get?_of_mem hj)).trans he)⟩

/-- The events that the conditions of a class refer to are in the queue. -/
theorem SoundWith.classQueued {k : Slack} (hs : SoundWith k w) {cls : ClassState}
    (hc : cls ∈ w.classes.items) {root : EventOperator}
    (hr : cls.startOn = some root ∨ cls.stopOn = some root) {e : EventId} (he : e ∈ root.refs) :
    (w.sys.event? e).isSome = true := by
  refine Sys.event?_isSome_of_blockers ?_
  have hpos := List.count_pos_iff.mpr he
  rcases hr with hr | hr
  · have := hs.accounts.startOn_le hc hr e
    omega
  · have := hs.accounts.stopOn_le hc hr e
    omega

/-- An init in which there is neither a class of the name nor a file for it asserts nothing about
the class that it puts into the table. -/
def unregistered : String → Restored Unit := fun _ => .ok ()

/-- A class is restored with every field as it was exactly when its tables are in
order, none of its limits is set to zero, and no kill timer is pending for the main
process of an instance. -/
theorem reached_classRestored {C : Host → World → WorldInput → Prop} (h : WorldReached C w)
    (r : ClassRecord) (hr : r.cls ∈ w.classes.items) (t : StateTexts) (x : Host)
    (parseOnSimple : String → String → Option EventOperator) (blocking : Job → List Json)
    (id : ClassId) (first : JobId) {jobs : List Job} (hjobs : jobs.Perm (w.instances r.cls.id)) :
    (∃ jsons json r' jobs', jobSerialiseAll t w.sys blocking jobs = some jsons ∧
      jobClassSerialise t w.sys r jsons = some json ∧
      jobClassDeserialise x t.dbusPath parseOnSimple unregistered w.sys.events.length id first
        json = .ok (r', jobs') ∧ r' = r.renamed w.sys.indexOf id) ↔
      r.Steady ∧ ∀ job ∈ w.instances r.cls.id, job.Resumable := by
  obtain ⟨leak, hs⟩ := reached_worldSound h
  have hmem : ∀ job ∈ jobs, job ∈ w.jobs.items := fun job hj =>
    (List.mem_filter.mp (hjobs.mem_iff.mp hj)).1
  have hall : (∀ job ∈ jobs, job.Resumable) ↔ ∀ job ∈ w.instances r.cls.id, job.Resumable :=
    forall_congr' fun job => imp_congr_left hjobs.mem_iff
  obtain ⟨jsons, hjsons, hread⟩ := jobs_restored t x (parseOnSimple "stop") blocking first
    (r.forming x w.sys.indexOf id) fun job hj => hs.jobQueued (hmem job hj)
  obtain ⟨json, hjson, hclass⟩ := jobClass_restored t x parseOnSimple unregistered id first jsons
    (fun root hroot e he => hs.classQueued hr (.inl hroot) he)
    (fun root hroot e he => hs.classQueued hr (.inr hroot) he)
  rw [steady_iff x w.sys.indexOf id, ← hall]
  constructor
  · rintro ⟨jsons', json', r', jobs', hjsons', hjson', hread', hsame⟩
    obtain rfl : jsons = jsons' := Option.some.inj (hjsons.symm.trans hjsons')
    obtain rfl : json = json' := Option.some.inj (hjson.symm.trans hjson')
    rw [hclass, check_bind_eq_ok, bne_iff_ne] at hread'
    obtain ⟨hnamed, hread'⟩ := hread'
    obtain ⟨-, -, hread'⟩ := bind_eq_ok.mp hread'
    obtain ⟨js, hjs, hok⟩ := bind_eq_ok.mp hread'
    cases hok
    exact ⟨⟨hnamed, hsame⟩, ((hread js).mp hjs).1⟩
  · rintro ⟨⟨hnamed, hsteady⟩, hresume⟩
    have hjs := (hread _).mpr ⟨hresume, rfl⟩
    obtain ⟨jobs', hok⟩ : ∃ jobs', jobClassDeserialise x t.dbusPath parseOnSimple unregistered
        w.sys.events.length id first json = .ok (r.revived x w.sys.indexOf id, jobs') := by
      rw [hclass]
      simp only [check_bind_eq_ok, bne_iff_ne, hnamed, ne_eq, not_false_eq_true, true_and]
      exact ⟨_, bind_eq_ok.mpr ⟨(), rfl, bind_eq_ok.mpr ⟨_, hjs, rfl⟩⟩⟩
    exact ⟨jsons, json, _, jobs', hjsons, hjson, hok, hsteady⟩

/-- The details of a class without stanzas of those names. -/
def plainDetails : ClassDetails := {}

/-- A class that waits for the second of two events is restored as it was. -/
theorem reached_classRestored_half :
    ∃ w r, WorldReached Anything w ∧ r.cls ∈ w.classes.items ∧
      (r.cls.startOn.map EventOperator.refs) = some [1] ∧
      ∃ jsons json r' jobs', jobSerialiseAll plainTexts w.sys (fun _ => []) [] = some jsons ∧
        jobClassSerialise plainTexts w.sys r jsons = some json ∧
        jobClassDeserialise plainHost plainTexts.dbusPath (fun _ _ => none) unregistered
          w.sys.events.length 1 1 json = .ok (r', jobs') ∧ r' = r.renamed w.sys.indexOf 1 := by
  have h₁ := (reached_newWorld Anything).next
    (.load 1 "/two/a.conf" (some bothParsed) none) ⟨trivial, trivial⟩ rfl
  have h₂ := h₁.next (.emit none "e" [] rfl false (-1)) ⟨trivial, trivial⟩ rfl
  have h₃ := h₂.next (.poll 1 listOrder) ⟨trivial, trivial⟩ rfl
  refine ⟨_, ⟨_, plainDetails, rfl⟩, h₃, .head _, rfl, ?_⟩
  refine (reached_classRestored h₃ ⟨_, plainDetails, rfl⟩ (.head _) plainTexts plainHost
    (fun _ _ => none) (fun _ => []) 1 1 (List.Perm.refl _)).mpr
      ⟨⟨by decide, by decide, by decide, fun i => ?_⟩, ?_⟩
  · exact nofun
  · exact fun job hj => absurd hj List.not_mem_nil

/-- A file whose class exports a variable. -/
def exportParsed : Parsed where
  ok := true
  config := { plainClass [.main] with exports := ["FOO"] }

/-- A host on which init has the variable in its own environment. -/
def fooHost : Host := { plainHost with getenv := fun name => if name = "FOO" then some "1" else none }

/-- The variable is not exported any more; with the variable in the environment of
init, what is exported has another name. -/
theorem export_not_restored :
    ∃ w r json, WorldReached Anything w ∧ r.cls ∈ w.classes.items ∧
      r.cls.config.exports = ["FOO"] ∧ jobClassSerialise plainTexts w.sys r [] = some json ∧
      (jobClassDeserialise plainHost plainTexts.dbusPath (fun _ _ => none) unregistered
        w.sys.events.length 1 1 json).map (fun p => p.1.cls.config.exports) = .ok [] ∧
      (jobClassDeserialise fooHost plainTexts.dbusPath (fun _ _ => none) unregistered
        w.sys.events.length 1 1 json).map (fun p => p.1.cls.config.exports) = .ok ["FOO=1"] := by
  have h₁ := (reached_newWorld Anything).next
    (.load 1 "/two/a.conf" (some exportParsed) none) ⟨trivial, trivial⟩ rfl
  exact ⟨_, ⟨_, plainDetails, rfl⟩, _, h₁, .head _, rfl, rfl, rfl, rfl⟩

end Startup
