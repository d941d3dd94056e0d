import Startup.World.State

/-!
# Who blocks an event

The blocker count of an event is the number of references to it: leaves that
it has matched, in the conditions of all classes and instances, and
`BLOCKED_EVENT` entries of the instances.  `leak` is what the count is too high
by; nothing but a re-execution makes it grow.

For each way in which init changes its objects there is one lemma that keeps
the accounts.
-/

namespace Startup

open Lib

/-- The events that a class blocks, as often as it blocks them. -/
def ClassState.refs (cls : ClassState) : List EventId :=
  cls.startOn.elim [] EventOperator.refs ++ cls.stopOn.elim [] EventOperator.refs

/-- Every leaf of the conditions of a class is true exactly when it refers to an
event. -/
def ClassState.Linked (cls : ClassState) : Prop :=
  (∀ root, cls.startOn = some root → root.Linked) ∧ ∀ root, cls.stopOn = some root → root.Linked

/-- The references to an event. -/
def references (classes : Store ClassState) (jobs : Store Job) (e : EventId) : Nat :=
  classes.tally (fun cls => cls.refs.count e) + jobs.tally fun job => job.refs.count e

/-- The accounts of the queue. -/
structure Accounts (leak : EventId → Nat) (sys : Sys) (classes : Store ClassState)
    (jobs : Store Job) : Prop where
  balance : ∀ e, sys.blockers e = references classes jobs e + leak e
  linked : ∀ cls ∈ classes.items, cls.Linked
  entries : ∀ job ∈ jobs.items, ∀ b ∈ job.blocking, b.mayWait = true
  leaves : ∀ job ∈ jobs.items, ∀ root, job.stopOn = some root → root.Linked

namespace Accounts

variable {leak : EventId → Nat} {sys sys' : Sys} {classes : Store ClassState} {jobs : Store Job}
  {cls cls' : ClassState} {job job' : Job}

theorem class_le (h : Accounts leak sys classes jobs) (hc : cls ∈ classes.items) (e : EventId) :
    cls.refs.count e ≤ sys.blockers e := by
  have := Store.le_tally (f := fun cls => cls.refs.count e) hc
  rw [h.balance, references]
  omega

theorem job_le (h : Accounts leak sys classes jobs) (hj : job ∈ jobs.items) (e : EventId) :
    job.refs.count e ≤ sys.blockers e := by
  have := Store.le_tally (f := fun job => job.refs.count e) hj
  rw [h.balance, references]
  omega

/-- The queue has the blocks of every job. -/
theorem owned (h : Accounts leak sys classes jobs) (hj : job ∈ jobs.items) : Owned sys job :=
  ⟨h.job_le hj, h.entries job hj, h.leaves job hj⟩

theorem startOn_le (h : Accounts leak sys classes jobs) (hc : cls ∈ classes.items)
    {root : EventOperator} (hr : cls.startOn = some root) (e : EventId) :
    root.refs.count e ≤ sys.blockers e := by
  have := h.class_le hc e
  rw [ClassState.refs, hr, List.count_append, Option.elim_some] at this
  omega

theorem stopOn_le (h : Accounts leak sys classes jobs) (hc : cls ∈ classes.items)
    {root : EventOperator} (hr : cls.stopOn = some root) (e : EventId) :
    root.refs.count e ≤ sys.blockers e := by
  have := h.class_le hc e
  rw [ClassState.refs, hr, List.count_append, Option.elim_some] at this
  omega

/-- The events that the conditions of a class refer to are in the queue. -/
theorem grounded (h : Accounts leak sys classes jobs) (hc : cls ∈ classes.items)
    {root : EventOperator} (hr : cls.startOn = some root) : Grounded sys root := by
  refine ⟨(h.linked cls hc).1 root hr, fun e he => Sys.event?_isSome_of_blockers ?_⟩
  have hle := h.startOn_le hc hr e
  have hpos := List.count_pos_iff.mpr he
  omega

/-! ## Changes -/

/-- The counts stay. -/
theorem of_blockers (h : Accounts leak sys classes jobs)
    (hb : ∀ e, sys'.blockers e = sys.blockers e) : Accounts leak sys' classes jobs :=
  ⟨fun e => by rw [hb, h.balance], h.linked, h.entries, h.leaves⟩

/-- A job is written, which may be a new one. -/
theorem put_job (h : Accounts leak sys classes jobs)
    (hb : ∀ e, sys'.blockers e + ((jobs.get? job'.id).map fun j => j.refs.count e).getD 0 =
      sys.blockers e + job'.refs.count e)
    (hentries : ∀ b ∈ job'.blocking, b.mayWait = true)
    (hleaves : ∀ root, job'.stopOn = some root → root.Linked) :
    Accounts leak sys' classes (jobs.put job') := by
  refine ⟨fun e => ?_, h.linked, fun j hj => ?_, fun j hj => ?_⟩
  · have h₁ := hb e
    have h₂ := h.balance e
    have h₃ := jobs.tally_put (fun j => j.refs.count e) job'
    rw [references] at h₂ ⊢
    change _ + ((jobs.get? job'.id).map _).getD 0 = _ at h₃
    omega
  · rcases Store.mem_put.mp hj with rfl | ⟨hj, -⟩
    · exact hentries
    · exact h.entries j hj
  · rcases Store.mem_put.mp hj with rfl | ⟨hj, -⟩
    · exact hleaves
    · exact h.leaves j hj

/-- A call on a job that keeps its frame. -/
theorem frame_job (h : Accounts leak sys classes jobs) (hget : jobs.get? job.id = some job)
    (hf : Frame sys job sys' job') : Accounts leak sys' classes (jobs.put job') := by
  have hmem := Store.mem_of_get? hget
  refine h.put_job (fun e => ?_) (hf.entries (h.entries job hmem)) (hf.linked (h.leaves job hmem))
  rw [hf.ident, hget]
  exact hf.balance e

/-- A class is written, which may be a new one. -/
theorem put_class (h : Accounts leak sys classes jobs)
    (hb : ∀ e, sys'.blockers e + ((classes.get? cls'.id).map fun c => c.refs.count e).getD 0 =
      sys.blockers e + cls'.refs.count e) (hl : cls'.Linked) :
    Accounts leak sys' (classes.put cls') jobs := by
  refine ⟨fun e => ?_, fun c hc => ?_, h.entries, h.leaves⟩
  · have h₁ := hb e
    have h₂ := h.balance e
    have h₃ := classes.tally_put (fun c => c.refs.count e) cls'
    rw [references] at h₂ ⊢
    change _ + ((classes.get? cls'.id).map _).getD 0 = _ at h₃
    omega
  · rcases Store.mem_put.mp hc with rfl | ⟨hc, -⟩
    · exact hl
    · exact h.linked c hc

end Accounts

end Startup
