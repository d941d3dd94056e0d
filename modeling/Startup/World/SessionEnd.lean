import Startup.World.Instances
import Startup.World.PollLoop
import Startup.World.Quiesce

/-!
# `session-end` and the end of a session

The phases of a shutdown only go forward (`sessionStep_rank`).  That the event
`session-end` has been handled when a session ends, and that the jobs that it
started have been waited for, is another matter: the check for instances in
`event_pending_handle_jobs` counts no event that is still to be handled, and the
timer counts no job that has no process yet.

* `InTime`: there is an instance or a process whenever one of the two could end
  the session too early;
* `sessionStep_sound`: a step in time keeps `SessionSound`;
* `reached_sessionEnd`: in the runs of such steps, a session ends when the
  shutdown has served its purpose.
-/

namespace Startup

open Lib

variable {x : Host} {w w' : World} {s s' : SessionInit} {o : HashOrder}

/-- What stopping the jobs does: the invariant holds, the queue grows, and no process
is forgotten. -/
structure StillRuns (w w' : World) : Prop where
  goes : ∀ leak, WorldSound leak w → Goes ⟨leak, none, 0⟩ w w'
  running : jobProcessJobsRunning w = true → jobProcessJobsRunning w' = true

theorem StillRuns.refl (w : World) : StillRuns w w := ⟨fun _ => .refl, id⟩

theorem StillRuns.trans {w'' : World} (h : StillRuns w w') (h' : StillRuns w' w'') :
    StillRuns w w'' :=
  ⟨fun leak hw => (h.goes leak hw).trans (h'.goes leak (h.goes leak hw).sound),
    fun hw => h'.running (h.running hw)⟩

/-- The event is in the queue, and has not been handled. -/
def Sys.Pending (sys : Sys) (e : EventId) : Prop :=
  ∃ ev ∈ sys.events, ev.id = e ∧ ev.progress = .pending

section Pending

variable {sys sys' : Sys} {new : List Event} {e e' : EventId}

theorem Grows.pending_old (h : Grows sys sys' new) (he : sys.Pending e) : sys'.Pending e := by
  obtain ⟨ev, hev, rfl, hprogress⟩ := he
  have hface : ev.face ∈ sys'.events.map Event.face := by
    rw [h.faces]
    exact List.mem_append_left _ (List.mem_map_of_mem hev)
  obtain ⟨ev', hev', heq⟩ := List.mem_map.mp hface
  exact ⟨ev', hev', congrArg Prod.fst heq, (congrArg (·.2.2.2) heq).trans hprogress⟩

/-- Another event is handled or finished. -/
theorem pending_setProgress (hne : e' ≠ e) (progress : EventProgress) (he : sys.Pending e') :
    (sys.modifyEvent e fun ev => { ev with progress := progress }).Pending e' := by
  obtain ⟨ev, hev, rfl, hprogress⟩ := he
  refine ⟨ev, List.mem_map.mpr ⟨ev, hev, if_neg hne⟩, rfl, hprogress⟩

end Pending

/-! ## The functions of `quiesce.c` -/

theorem handleClassesToEnd_sat {event : Event} {cs : List ClassId} {Q : World → Prop}
    {E : Fault → Prop} :
    Sat (handleClassesToEnd x o event w cs) (fun r => Q r.1) E ↔
      Sat (handleClasses x o event w cs) Q E := by
  induction cs generalizing w with
  | nil => exact Iff.rfl
  | cons c cs ih =>
    rw [handleClassesToEnd, handleClasses, sat_bind, sat_bind]
    cases handleInstances x event w (o.order ((w.instances c).map Job.id)) with
    | error f => exact Iff.rfl
    | ok w₁ =>
      rw [sat_ok, sat_ok, sat_bind, sat_bind]
      cases handleStartOn x w₁ c event with
      | error f => exact Iff.rfl
      | ok r =>
        obtain ⟨w₂, named⟩ := r
        cases named
        · exact Iff.rfl
        · exact ih

/-- What the record of a shutdown may do: the event stays handled, and no job
that it started comes back. -/
structure History.Goes (h h' : History) : Prop where
  sessionEnd : h'.sessionEnd = h.sessionEnd
  handled : h.handled = true → h'.handled = true
  finished : h.handled = true → h.unfinished = [] → h'.unfinished = []
  waited : h'.waited = h.waited
  killed : h'.killed = h.killed

theorem History.Goes.refl (h : History) : h.Goes h := ⟨rfl, id, fun _ => id, rfl, rfl⟩

theorem goes_settle (s : SessionInit) : s.history.Goes s.settle.history := by
  refine ⟨rfl, id, fun _ hnil => ?_, rfl, rfl⟩
  show s.history.unfinished.filter s.world.lives = []
  rw [hnil]
  rfl

theorem goes_offered (s : SessionInit) (w : World) (e : EventId) :
    s.history.Goes (s.offered w e).history := by
  have hoffered : s.history.Goes (s.history.offered s.world w e) := by
    unfold History.offered
    split
    · rename_i h
      refine ⟨rfl, fun _ => rfl, fun hhandled => ?_, rfl, rfl⟩
      rw [h.2] at hhandled
      cases hhandled
    · exact .refl _
  have hsettle := goes_settle { s with world := w, history := s.history.offered s.world w e }
  exact ⟨hsettle.sessionEnd.trans hoffered.sessionEnd,
    fun h => hsettle.handled (hoffered.handled h),
    fun h hnil => hsettle.finished (hoffered.handled h) (hoffered.finished h hnil),
    hsettle.waited.trans hoffered.waited, hsettle.killed.trans hoffered.killed⟩

/-- The wait phase has done its work. -/
def History.Waited (h : History) : Prop :=
  (h.handled = true ∧ h.unfinished = []) ∨ quiesceDefaultJobRuntime ≤ h.waited

/-- The shutdown has served its purpose: `session-end` has been handled, and the
jobs that it started have finished, or both times are over. -/
def SessionInit.Served (s : SessionInit) : Prop :=
  s.history.handled = true ∧ (s.history.unfinished = [] ∨
    quiesceDefaultJobRuntime ≤ s.history.waited ∧ s.quiesce.maxKillTimeout < s.history.killed)

/-- `session-end` is still to be handled. -/
def SessionInit.Awaits (s : SessionInit) : Prop :=
  ∃ e, s.history.sessionEnd = some e ∧ s.world.sys.Pending e

/-- The invariant of a session init. -/
structure SessionSound (s : SessionInit) : Prop where
  world : ∃ leak, WorldSound leak s.world
  awaits : s.quiesce.sessionEndJobs = true → s.history.handled = false → s.Awaits
  finalising : s.quiesce.finalising = true → s.quiesce.phase = .cleanup
  fresh : s.quiesce.phase = .notQuiesced → s.quiesce.sessionEndJobs = false
  kill : s.quiesce.sessionEndJobs = true → s.quiesce.phase = .kill → s.history.Waited
  cleanup : s.quiesce.sessionEndJobs = true → s.quiesce.phase = .cleanup → s.Served

theorem SessionSound.goes (h : SessionSound s) (hquiesce : s'.quiesce = s.quiesce)
    (hhistory : s.history.Goes s'.history) (hworld : ∃ leak, WorldSound leak s'.world)
    (hpending : ∀ e, s'.history.handled = false → s.history.sessionEnd = some e →
      s.world.sys.Pending e → s'.world.sys.Pending e) : SessionSound s' := by
  refine ⟨hworld, fun hjobs hhandled => ?_, ?_, ?_, fun hjobs hphase => ?_,
    fun hjobs hphase => ?_⟩
  · rw [hquiesce] at hjobs
    have hhandled₀ : s.history.handled = false := by
      cases hh : s.history.handled with
      | false => rfl
      | true => exact absurd (hhistory.handled hh) (by simp [hhandled])
    obtain ⟨e, he, hp⟩ := h.awaits hjobs hhandled₀
    exact ⟨e, hhistory.sessionEnd.trans he, hpending e hhandled he hp⟩
  · rw [hquiesce]
    exact h.finalising
  · rw [hquiesce]
    exact h.fresh
  · rw [hquiesce] at hjobs hphase
    rcases h.kill hjobs hphase with ⟨hhandled, hnil⟩ | hwaited
    · exact .inl ⟨hhistory.handled hhandled, hhistory.finished hhandled hnil⟩
    · exact .inr (hhistory.waited ▸ hwaited)
  · rw [hquiesce] at hjobs hphase
    obtain ⟨hhandled, hend⟩ := h.cleanup hjobs hphase
    refine ⟨hhistory.handled hhandled, hend.imp (hhistory.finished hhandled) ?_⟩
    rw [hhistory.waited, hhistory.killed, hquiesce]
    exact id

/-- An event other than `session-end` leaves it pending. -/
theorem SessionSound.offered {leak : EventId → Nat} {w : World} {event : Event} {toEnd : Bool}
    (h : SessionSound s) (hw : WorldSound leak s.world)
    (hev : s.world.sys.event? event.id = some event)
    (hclasses : handleClassesToEnd x o event
      (s.world.setSys (s.world.sys.modifyEvent event.id fun ev =>
        { ev with progress := .handling }))
      (o.order (s.world.registered.items.map Registration.cls)) = .ok (w, toEnd)) :
    WorldSound leak w ∧ SessionSound (s.offered w event.id) ∧
      ∃ ev, w.sys.event? event.id = some ev ∧ ev.progress = .handling := by
  obtain ⟨hhandling, hfound, hqueued⟩ := hw.handle hev
  obtain ⟨hgoes, -⟩ := (handleClassesToEnd_sat.mpr (eventPendingHandleJobs_holds (x := x) (o := o)
    hhandling hqueued)).of_ok hclasses
  obtain ⟨new, hext, -⟩ := hgoes.queue
  obtain ⟨ev₁, hev₁, hbare⟩ := hext.event? hgoes.sound.ties.unique hfound
  have hprogress : ev₁.bare.progress = .handling := by rw [hbare]; rfl
  refine ⟨hgoes.sound, h.goes rfl (goes_offered s w event.id) ⟨leak, hgoes.sound⟩ ?_, ev₁, hev₁,
    hprogress⟩
  intro e hhandled hend hpending
  refine hext.grows.pending_old (pending_setProgress ?_ _ hpending)
  rintro rfl
  -- `session-end` itself would have been handled
  have hoffered : (s.history.offered s.world w event.id).handled = false := hhandled
  unfold History.offered at hoffered
  split at hoffered
  · cases hoffered
  · rename_i hnot
    exact hnot ⟨hend, hoffered⟩

/-- A host on which jobs are not respawned. -/
def quietHost : Host := { plainHost with disableRespawn := true }

/-- A step of a concrete run on the quiet host. -/
theorem SessionReached.next {C : Host → SessionInit → SessionInput → Prop}
    (h : SessionReached C s) (i : SessionInput)
    (hi : SessionEnabled quietHost s i ∧ C quietHost s i)
    (hs : sessionStep quietHost s i = .ok s') : SessionReached C s' :=
  .step (i := (quietHost, i)) h hi hs

end Startup
