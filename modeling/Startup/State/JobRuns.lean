import Startup.State.Jobs
import Startup.World.Overrides
import Startup.World.Runs

/-!
# Jobs that a re-execution finds

What `job_deserialise` makes of a job in a state that init can reach: `SameJob` says
that it goes on as it was.  The kill timer decides whether it comes that far,
since `nih_assert (job->kill_process)` fails for the main process; an
environment table is the same again when no entry of it is bare or double.
-/

namespace Startup

open Lib

/-- The run state of a job is the same. -/
structure SameJob (job job' : Job) : Prop where
  goal : job'.goal = job.goal
  state : job'.state = job.state
  env : job'.env = job.env
  startEnv : job'.startEnv = job.startEnv
  stopEnv : job'.stopEnv = job.stopEnv
  pid : job'.pid = job.pid
  failed : job'.failed = job.failed
  failedProcess : job'.failedProcess = job.failedProcess
  exitStatus : job'.exitStatus = job.exitStatus
  respawnTime : job'.respawnTime = job.respawnTime
  respawnCount : job'.respawnCount = job.respawnCount
  traceForks : job'.traceForks = job.traceForks
  traceState : job'.traceState = job.traceState
  killTimer : job'.killTimer = job.killTimer
  killProcess : job'.killProcess = job.killProcess

/-- A table of a job that is `NULL`, or has entries that each have a value and a key
of their own. -/
def RestorableTable (env : Option (List String)) : Prop :=
  ∀ e, env = some e → e ≠ [] ∧ Restorable e

theorem revivedEnv_eq_iff {x : Host} {env : Option (List String)} :
    revivedEnv x env = env ↔ RestorableTable env := by
  rw [revivedEnv, RestorableTable]
  cases env with
  | none => simp
  | some e =>
    cases e with
    | nil => simp
    | cons s e =>
      have h := environAppend_self_iff x.getenv (s :: e)
      simp [h]

theorem resumable_of_none {job : Job} (h : job.killTimer = none) : job.Resumable := by
  intro due hdue
  rw [h] at hdue
  cases hdue

theorem restorableTable_of_none {env : Option (List String)} (h : env = none) :
    RestorableTable env := by
  intro e he
  rw [h] at he
  cases he

theorem restorableTable_of_some {env : Option (List String)} {e : List String}
    (h : env = some e) (hne : e ≠ []) (hr : Restorable e) : RestorableTable env := by
  intro e' he
  rw [h] at he
  cases he
  exact ⟨hne, hr⟩

/-- The events that a job refers to are in the queue. -/
theorem Owned.queued {sys : Sys} {job : Job} (h : Owned sys job) {root : EventOperator}
    (hr : job.stopOn = some root) {e : EventId} (he : e ∈ root.refs) :
    (sys.event? e).isSome = true :=
  (h.grounded hr).2 e he

variable {w : World} {job : Job}

/-- A job is restored as it was exactly when no kill timer is pending for the main
process and its environment tables are in order. -/
theorem reached_jobRestored {C : Host → World → WorldInput → Prop} (h : WorldReached C w)
    (hj : job ∈ w.jobs.items) (t : StateTexts) (x : Host)
    (parseOnSimple : String → Option EventOperator) (blocking : List Json) (id : JobId)
    (classId : ClassId) (cls : JobClass) (stopOn : Option EventOperator) :
    (∃ json job', jobSerialise t w.sys job blocking = some json ∧
      jobDeserialise x parseOnSimple w.sys.events.length
        (fun name => jobNew id classId cls name stopOn) json = .ok job' ∧ SameJob job job') ↔
      job.Resumable ∧ RestorableTable job.env ∧ RestorableTable job.startEnv ∧
        RestorableTable job.stopEnv := by
  obtain ⟨leak, hs⟩ := reached_worldSound h
  have howned := hs.accounts.owned hj
  have hblocker : ∀ e, job.blocker = some e → (w.sys.event? e).isSome = true :=
    fun e he => hs.ties.queued job.id e ((blockerOf_of_get? (Store.get?_of_mem hj)).trans he)
  obtain ⟨json, hjson, hread⟩ := job_restored t x parseOnSimple
    (fun name => jobNew id classId cls name stopOn) blocking
    (fun r hr e he => howned.queued hr he) hblocker
  constructor
  · rintro ⟨json', job', hjson', hread', hsame⟩
    obtain rfl : json = json' := Option.some.inj (hjson.symm.trans hjson')
    rw [hread] at hread'
    rcases ht : job.restoreTimer with f | timer
    · simp [ht, bind, Except.bind] at hread'
    · simp only [ht, bind, Except.bind, Except.ok.injEq] at hread'
      subst hread'
      exact ⟨(restoreTimer_eq_ok.mp ht).2, revivedEnv_eq_iff.mp hsame.env,
        revivedEnv_eq_iff.mp hsame.startEnv, revivedEnv_eq_iff.mp hsame.stopEnv⟩
  · rintro ⟨hresume, henv, hstartEnv, hstopEnv⟩
    have ht : job.restoreTimer = .ok job.killTimer := restoreTimer_eq_ok.mpr ⟨rfl, hresume⟩
    rw [ht] at hread
    exact ⟨json, _, hjson, hread, rfl, rfl, revivedEnv_eq_iff.mpr henv,
      revivedEnv_eq_iff.mpr hstartEnv, revivedEnv_eq_iff.mpr hstopEnv, rfl, rfl, rfl, rfl, rfl, rfl,
      rfl, rfl, rfl, rfl⟩

/-- What is written when no process has any output. -/
def plainTexts : StateTexts where
  dbusPath := jobPath
  log := fun _ _ => []

/-- A file whose class has an environment. -/
def envParsed : Parsed where
  ok := true
  config := { plainClass [.main] with env := ["A=1"] }

/-- A job that waits for its starting event is restored as it was. -/
theorem reached_jobRestored_starting :
    ∃ w job json job', WorldReached Anything w ∧ job ∈ w.jobs.items ∧ job.blocker = some 1 ∧
      jobSerialise plainTexts w.sys job [] = some json ∧
      jobDeserialise plainHost (fun _ => none) w.sys.events.length
        (fun name => jobNew 1 1 (plainClass [.main]) name none) json = .ok job' ∧
      SameJob job job' := by
  have h₁ := (reached_newWorld Anything).next
    (.load 1 "/two/a.conf" (some envParsed) none) ⟨trivial, trivial⟩ rfl
  have h₂ := h₁.next (.classStart 1 7 [] false) ⟨⟨_, .head _, rfl⟩, trivial⟩ rfl
  obtain ⟨json, job', hwrite, hread, hsame⟩ :=
    (reached_jobRestored h₂ (.head _) plainTexts plainHost (fun _ => none) [] 1 1
      (plainClass [.main]) none).mpr ⟨resumable_of_none rfl,
        restorableTable_of_some rfl (List.cons_ne_nil "A=1" []) (by decide),
        restorableTable_of_none rfl, restorableTable_of_none rfl⟩
  exact ⟨_, _, json, job', h₂, .head _, rfl, hwrite, hread, hsame⟩

/-- A job whose main process has been sent its kill signal makes the new init fail. -/
theorem killTimer_not_restored :
    ∃ w job json, WorldReached Anything w ∧ job ∈ w.jobs.items ∧ job.state = .killed ∧
      job.killProcess = some .main ∧ jobSerialise plainTexts w.sys job [] = some json ∧
      jobDeserialise plainHost (fun _ => none) w.sys.events.length
        (fun name => jobNew 1 1 (plainClass [.main]) name none) json =
          .error (.fault (.assertFailed .jobDeserialise)) := by
  have h₁ := (reached_newWorld Anything).next
    (.load 1 "/two/a.conf" (some envParsed) none) ⟨trivial, trivial⟩ rfl
  have h₂ := h₁.next (.classStart 1 7 [] false) ⟨⟨_, .head _, rfl⟩, trivial⟩ rfl
  have h₃ := h₂.next (.poll 1 listOrder) ⟨trivial, trivial⟩ rfl
  have h₄ := h₃.next (.job 1 (.childClosed 1)) ⟨⟨trivial, _, rfl, rfl⟩, trivial⟩ rfl
  have h₅ := h₄.next (.job 1 (.changeGoal .stop)) ⟨⟨trivial, _, rfl, by simp [Enabled]⟩, trivial⟩ rfl
  have h₆ := h₅.next (.poll 3 listOrder) ⟨trivial, trivial⟩ rfl
  exact ⟨_, _, _, h₆, .head _, rfl, rfl, rfl, rfl⟩

end Startup
