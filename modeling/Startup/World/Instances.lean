import Startup.World.Requests

/-!
# The instances while an event is handled

`event_pending_handle_jobs` starts and stops jobs, and makes new instances; an instance
that is there stays (`handleClasses_stocks`), since a job that is told to stop has to wait
for its `stopping` event at least.
-/

namespace Startup

open Lib

variable {x : Host} {o : HashOrder} {w w' w'' : World} {c : ClassId} {event : Event}

/-- No class has lost an instance. -/
structure Stocks (w w' : World) : Prop where
  numbered : w.Numbered → w'.Numbered
  instances : w.Numbered → ∀ job ∈ w.jobs.items, ∃ job' ∈ w'.jobs.items,
    job'.classId = job.classId

namespace Stocks

theorem refl (w : World) : Stocks w w := ⟨fun h => h, fun _ job hj => ⟨job, hj, rfl⟩⟩

theorem trans (h : Stocks w w') (h' : Stocks w' w'') : Stocks w w'' := by
  refine ⟨fun hn => h'.numbered (h.numbered hn), fun hn job hj => ?_⟩
  obtain ⟨job', hj', hc'⟩ := h.instances hn job hj
  obtain ⟨job'', hj'', hc''⟩ := h'.instances (h.numbered hn) job' hj'
  exact ⟨job'', hj'', hc''.trans hc'⟩

/-- A job is written back. -/
theorem putJob {sys : Sys} {job job' : Job} (hget : w.jobs.get? job.id = some job)
    (hid : job'.id = job.id) (hclass : job'.classId = job.classId) :
    Stocks w ((w.setSys sys).putJob job') := by
  refine ⟨fun hn j hj => ?_, fun _ old hold => ?_⟩
  · rcases Store.mem_put.mp hj with rfl | ⟨hj, -⟩
    · rw [hid]
      exact hn job (Store.mem_of_get? hget)
    · exact hn j hj
  · by_cases hsame : old.id = job.id
    · have hget' := Store.get?_of_mem hold
      rw [show key old = job.id from hsame, hget] at hget'
      cases hget'
      exact ⟨job', Store.mem_put.mpr (.inl rfl), hclass⟩
    · exact ⟨old, Store.mem_put.mpr (.inr ⟨hold, fun h => hsame (h.trans hid)⟩), rfl⟩

/-- A job with a new number is added. -/
theorem newJob {sys : Sys} {job : Job} (hid : job.id = w.lastJob + 1) :
    Stocks w { (w.setSys sys).putJob job with lastJob := w.lastJob + 1 } := by
  refine ⟨fun hn j hj => ?_, fun hn old hold => ?_⟩
  · rcases Store.mem_put.mp hj with rfl | ⟨hj, -⟩
    · exact hid.le
    · exact (hn j hj).trans (Nat.le_succ _)
  · refine ⟨old, Store.mem_put.mpr (.inr ⟨hold, fun h => ?_⟩), rfl⟩
    have hle := hn old hold
    rw [show old.id = w.lastJob + 1 from h.trans hid] at hle
    exact Nat.not_succ_le_self _ hle

end Stocks

end Startup
