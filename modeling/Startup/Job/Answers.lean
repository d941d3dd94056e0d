import Startup.Job.Calls

/-!
# Whom a job answers

On a notification a job answers requests that wait for it and no others, and no
request begins to wait for it.  `Answers` says so of a call, and
`notification_answers` of every notification.
-/

namespace Startup

open Lib

variable {x : Host} {sys sys' : Sys} {job job' : Job}

/-- A call answers only requests that wait for the job, and adds none of them. -/
structure Answers (sys : Sys) (job : Job) (sys' : Sys) (job' : Job) : Prop where
  log : ∃ acts, sys'.log = acts ++ sys.log ∧
    ∀ m ok, .replied m ok ∈ acts → ∃ b ∈ job.blocking, b.message? = some m
  entries : ∀ b ∈ job'.blocking, b ∈ job.blocking

namespace Answers

theorem refl (sys : Sys) (job : Job) : Answers sys job sys job :=
  ⟨⟨[], rfl, by simp⟩, fun _ hb => hb⟩

theorem trans {sys'' : Sys} {job'' : Job} (h : Answers sys job sys' job')
    (h' : Answers sys' job' sys'' job'') : Answers sys job sys'' job'' := by
  obtain ⟨acts, hlog, hacts⟩ := h.log
  obtain ⟨acts', hlog', hacts'⟩ := h'.log
  refine ⟨⟨acts' ++ acts, by rw [hlog', hlog, List.append_assoc], fun m ok hm => ?_⟩,
    fun b hb => h.entries b (h'.entries b hb)⟩
  rcases List.mem_append.mp hm with hm | hm
  · obtain ⟨b, hb, hmessage⟩ := hacts' m ok hm
    exact ⟨b, h.entries b hb, hmessage⟩
  · exact hacts m ok hm

theorem finished {failed : Bool} (h : Finished failed sys job.blocking sys')
    (hblocking : job'.blocking = []) : Answers sys job sys' job' := by
  refine ⟨⟨_, h.log, fun m ok hm => ?_⟩, by simp [hblocking]⟩
  rw [List.mem_reverse, List.mem_map] at hm
  obtain ⟨m', hm', heq⟩ := hm
  cases heq
  exact List.mem_filterMap.mp hm'

theorem fails {p : Option ProcessType} {status : Int} (h : Fails sys job p status sys' job') :
    Answers sys job sys' job' := by
  cases h with
  | already => exact .refl _ _
  | now failed finish => exact .finished finish rfl

theorem closed : Closed Answers where
  quiet h _ hblocking _ := by
    obtain ⟨acts, hlog, hacts⟩ := h.log
    exact ⟨⟨acts, hlog, fun m ok hm => absurd hm (hacts m ok)⟩, fun b hb => hblocking ▸ hb⟩
  finished h _ hblocking _ := .finished h hblocking
  fails := .fails
  trans := .trans

end Answers

/-- The program answers only requests that wait for the job. -/
def Answering (sys : Sys) (job : Job) (m : Except Fault (Sys × JobRef)) : Prop :=
  Sat m (fun r => Answers sys job r.1 r.2.job) (fun _ => True)

namespace Answering

theorem after {m : Except Fault (Sys × JobRef)} (h : Answering sys' job' m)
    (hto : Answers sys job sys' job') : Answering sys job m :=
  Within.after Answers.closed h hto

/-- The job is accessed after a call. -/
theorem get {m : Except Fault (Sys × JobRef)} {fn : SourceFn}
    {k : Sys → Job → Except Fault (Sys × JobRef)} (hm : Answering sys job m)
    (hk : ∀ sys' job', Answers sys job sys' job' → Answering sys job (k sys' job')) :
    Answering sys job (do
      let r ← m
      let job ← r.2.get fn
      k r.1 job) :=
  Within.get hm hk

end Answering

/-! ## Calls -/

theorem Enters.answers {old : JobState} {pass : Pass} (h : Enters x sys old job pass) :
    pass.Holds (fun sys' job' _ => Answers sys job sys' job') (Answers sys job) :=
  h.within Answers.closed

theorem jobAdvance_answers (sys : Sys) (job : Job) :
    Answering sys job (jobAdvance x sys job) :=
  jobAdvance_within Answers.closed sys job

theorem jobChangeGoal_answers (sys : Sys) (job : Job) (goal : JobGoal) :
    Answering sys job (jobChangeGoal x sys job goal) :=
  jobChangeGoal_within Answers.closed sys job goal

/-- On a notification a job answers only requests that wait for it. -/
theorem notification_answers {i : Input} (hrest : job.state.spawning? = false)
    (hi : i.happens) : Answering sys job (jobStep x sys job i) :=
  notification_within Answers.closed hrest hi

end Startup
