import Startup.Job.Arrival
import Startup.World.Runs

/-!
# The requests of the clients

Clients ask for a job to be started, stopped or restarted, through its class or
through an instance.  `jobClassStop` and `jobClassRestart` are the methods of a
class that `World` does not have; `clientStep` puts everything together, and
keeps a list of the requests that have come in since init last executed itself.

`World.account` counts, for a request, the answers and the entries of jobs.
`Carries` says that a call changes it by the requests that it deals with.
-/

namespace Startup

open Lib

/-! ## The methods of a class -/

/-- What `job_class_stop` and `job_class_restart` do until they have found the
instance: `f` goes on, with the environment that names it. -/
def withInstance (x : Host) (w : World) (c : ClassId) (message : MessageId) (env : List String)
    (f : List String → Sys → Job → Except Fault (Sys × JobRef)) : Except Fault World := do
  let cls ← w.getClass .jobClassRestart c
  let refused := w.setSys (w.sys.act (.replied message false))
  if !environAllValid env then .ok refused
  else
    let full := environAppend x.getenv (jobClassEnvironment x w cls) true env
    match environExpand cls.config.instancePattern full with
    | .error _ => .ok refused
    | .ok name =>
      match w.findInstance cls.id name with
      | none => .ok refused
      | some job => withJob w .jobClassRestart job.id (f full)

/-- `job_class_stop`. -/
def jobClassStop (x : Host) (w : World) (c : ClassId) (message : MessageId)
    (env : List String) (wait : Bool) : Except Fault World :=
  withInstance x w c message env fun _ sys job =>
    jobClassStopInstance x sys job env message wait

/-- `job_class_restart`. -/
def jobClassRestart (x : Host) (w : World) (c : ClassId) (message : MessageId)
    (env : List String) (wait : Bool) : Except Fault World :=
  withInstance x w c message env fun full sys job =>
    jobClassRestartInstance x sys job full message wait

/-! ## Accounts -/

namespace World

/-- The entries for a request, of all jobs. -/
def held (w : World) (m : MessageId) : Nat := w.jobs.tally fun job => job.requests.count m

/-- The answers to a request. -/
def answered (w : World) (m : MessageId) : Nat := (w.sys.replies.map Prod.fst).count m

/-- The answers to a request and its entries. -/
def account (w : World) (m : MessageId) : Nat := w.answered m + w.held m

/-- The number of the next job has not been given out. -/
def Numbered (w : World) : Prop := ∀ job ∈ w.jobs.items, job.id ≤ w.lastJob

/-- No request waits for a job that has arrived. -/
def Clear (w : World) : Prop := ∀ job ∈ w.jobs.items, job.Clear

end World

/-- A call deals with the requests `ms` for the first time, as far as no emitter of
an event waits under the same number. -/
structure Carries (ms : List MessageId) (w w' : World) : Prop where
  emits : ∀ m, w'.sys.AwaitsEmit m → w.sys.AwaitsEmit m
  numbered : w.Numbered → w'.Numbered
  clear : w.Clear → w'.Clear
  /-- no answer is taken back -/
  answers : w.sys.replies <:+ w'.sys.replies
  balance : w.Numbered → ∀ m, ¬ w.sys.AwaitsEmit m →
    w'.account m = w.account m + ms.count m

/-- A call that does not concern the jobs, and answers nobody. -/
structure Aside (w w' : World) : Prop where
  jobs : w'.jobs = w.jobs
  lastJob : w'.lastJob = w.lastJob
  noAnswer : NoAnswer w.sys w'.sys

variable {k : Slack} {x : Host} {w w' w'' : World} {ms ms' : List MessageId} {c : ClassId}
  {event : Event}

namespace Carries

theorem refl (w : World) : Carries [] w w :=
  ⟨fun _ h => h, fun h => h, fun h => h, List.suffix_refl _, fun _ _ _ => rfl⟩

theorem trans (h : Carries ms w w') (h' : Carries ms' w' w'') :
    Carries (ms ++ ms') w w'' := by
  refine ⟨fun m hm => h.emits m (h'.emits m hm), fun hn => h'.numbered (h.numbered hn),
    fun hc => h'.clear (h.clear hc), h.answers.trans h'.answers, fun hn m hm => ?_⟩
  have h₁ := h.balance hn m hm
  have h₂ := h'.balance (h.numbered hn) m fun hm' => hm (h.emits m hm')
  rw [List.count_append]
  omega

/-- An answer that is given at once. -/
theorem reply (w : World) (m : MessageId) (ok : Bool) :
    Carries [m] w (w.setSys (w.sys.act (.replied m ok))) := by
  refine ⟨fun _ h => h, fun h => h, fun h => h, List.suffix_cons _ _, fun _ m' _ => ?_⟩
  show (m :: w.sys.replies.map Prod.fst).count m' + w.held m' = _
  rw [List.count_cons, World.account, World.answered, List.count_singleton]
  omega

end Carries

namespace Aside

theorem refl (w : World) : Aside w w := ⟨rfl, rfl, .refl _⟩

theorem trans (h : Aside w w') (h' : Aside w' w'') : Aside w w'' :=
  ⟨h'.jobs.trans h.jobs, h'.lastJob.trans h.lastJob, h.noAnswer.trans h'.noAnswer⟩

theorem of_sys {sys : Sys} (h : NoAnswer w.sys sys) : Aside w (w.setSys sys) := ⟨rfl, rfl, h⟩

end Aside

/-! ## Calls on a job -/

end Startup
