import Startup.World.State

/-!
# Jobs and the events that they wait for

`Ties` says from both ends how a job and its blocker are linked: an event has
one `BLOCKED_JOB` entry for every job that waits for it and none for any other, and
no `BLOCKED_EVENT` entry.
`extra` counts the entries that are on their way out: while `event_finished` lets
a job go on, its entry is still in the list.
-/

namespace Startup

open Lib

/-- The event that the job at an address waits for. -/
def blockerOf (jobs : Store Job) (id : JobId) : Option EventId :=
  (jobs.get? id).bind Job.blocker

/-- The links between the jobs and the queue. -/
structure Ties (extra : EventId → JobId → Nat) (sys : Sys) (jobs : Store Job) : Prop where
  unique : (sys.events.map Event.id).Nodup
  given : ∀ ev ∈ sys.events, ev.id ≤ sys.lastEvent
  entries : ∀ ev ∈ sys.events, ∀ id, ev.blocking.count (.job id) =
    (if blockerOf jobs id = some ev.id then 1 else 0) + extra ev.id id
  queued : ∀ id e, blockerOf jobs id = some e → (sys.event? e).isSome = true
  leaving : ∀ e id, extra e id ≠ 0 → e ≤ sys.lastEvent
  plain : ∀ ev ∈ sys.events, ∀ b ∈ ev.blocking, b.event? = none

theorem mem_of_event? {sys : Sys} {e : EventId} {ev : Event} (h : sys.event? e = some ev) :
    ev ∈ sys.events ∧ ev.id = e :=
  ⟨List.mem_of_find?_eq_some h, by simpa using List.find?_some h⟩

theorem event?_isSome_iff {sys : Sys} {e : EventId} :
    (sys.event? e).isSome = true ↔ ∃ ev ∈ sys.events, ev.id = e := by
  simp [Sys.event?, List.find?_isSome]

/-- The events of a queue that has grown are the old ones and the new ones. -/
theorem Extends.mem {sys sys' : Sys} {new : List Event} (h : Extends sys sys' new) {ev : Event}
    (hev : ev ∈ sys'.events) :
    (∃ old ∈ sys.events, old.id = ev.id ∧ old.blocking = ev.blocking) ∨
      ∃ ev' ∈ new, ev'.id = ev.id ∧ ev'.blocking = ev.blocking := by
  have hmem : ev.bare ∈ sys'.events.map Event.bare := List.mem_map_of_mem hev
  rw [h.events, List.mem_append] at hmem
  rcases hmem with hmem | hmem
  · obtain ⟨old, hold, heq⟩ := List.mem_map.mp hmem
    have hid : old.bare.id = ev.bare.id := by rw [heq]
    have hblocking : old.bare.blocking = ev.bare.blocking := by rw [heq]
    exact .inl ⟨old, hold, hid, hblocking⟩
  · exact .inr ⟨ev.bare, hmem, rfl, rfl⟩

theorem Extends.map_id {sys sys' : Sys} {new : List Event} (h : Extends sys sys' new) :
    sys'.events.map Event.id = sys.events.map Event.id ++ new.map Event.id := by
  have hbare : ∀ evs : List Event, evs.map Event.id = (evs.map Event.bare).map Event.id := by
    intro evs
    simp [List.map_map, Function.comp_def]
  rw [hbare, h.events, List.map_append, ← hbare]

/-- The new events are younger than the old ones. -/
theorem Extends.new_id {sys sys' : Sys} {new : List Event} (h : Extends sys sys' new)
    {ev : Event} (hev : ev ∈ new) : sys.lastEvent < ev.id ∧ ev.id ≤ sys'.lastEvent := by
  have hmem : ev.id ∈ new.map Event.id := List.mem_map_of_mem hev
  rw [h.ids, List.mem_range'_1, Nat.add_right_comm] at hmem
  exact ⟨Nat.lt_of_succ_le hmem.1, h.lastEvent ▸ Nat.le_of_lt_succ hmem.2⟩

theorem Extends.le_lastEvent {sys sys' : Sys} {new : List Event} (h : Extends sys sys' new) :
    sys.lastEvent ≤ sys'.lastEvent :=
  h.lastEvent ▸ Nat.le_add_right _ _

theorem blockerOf_put_self {jobs : Store Job} {job : Job} :
    blockerOf (jobs.put job) job.id = job.blocker := by
  rw [blockerOf, show job.id = key job from rfl, Store.get?_put_self]
  rfl

theorem blockerOf_put_ne {jobs : Store Job} {job : Job} {id : JobId} (h : id ≠ job.id) :
    blockerOf (jobs.put job) id = blockerOf jobs id := by
  rw [blockerOf, Store.get?_put_ne h]
  rfl

theorem blockerOf_of_get? {jobs : Store Job} {job : Job} {id : JobId}
    (h : jobs.get? id = some job) : blockerOf jobs id = job.blocker := by
  rw [blockerOf, h]
  rfl

namespace Ties

variable {extra : EventId → JobId → Nat} {sys sys' : Sys} {jobs : Store Job} {job job' : Job}

/-- The events that a job waits for are as old as those in the queue. -/
theorem le_lastEvent (h : Ties extra sys jobs) {id : JobId} {e : EventId}
    (hb : blockerOf jobs id = some e) : e ≤ sys.lastEvent := by
  obtain ⟨ev, hev, rfl⟩ := event?_isSome_iff.mp (h.queued id e hb)
  exact h.given ev hev

/-- An event that is new has no entry on its way out. -/
theorem extra_eq_zero (h : Ties extra sys jobs) {e : EventId} (he : sys.lastEvent < e)
    (id : JobId) : extra e id = 0 := by
  by_contra hne
  exact absurd (h.leaving e id hne) (Nat.not_le_of_gt he)

/-- The addresses of a queue that has grown. -/
theorem grow (h : Ties extra sys jobs) {new : List Event} (hext : Extends sys sys' new) :
    (sys'.events.map Event.id).Nodup ∧ (∀ ev ∈ sys'.events, ev.id ≤ sys'.lastEvent) ∧
      ∀ e id, extra e id ≠ 0 → e ≤ sys'.lastEvent := by
  refine ⟨?_, fun ev hev => ?_, fun e id he => (h.leaving e id he).trans hext.le_lastEvent⟩
  · rw [hext.map_id, List.nodup_append]
    refine ⟨h.unique, hext.ids ▸ List.nodup_range', ?_⟩
    rintro _ ha _ hb rfl
    obtain ⟨ev, hev, rfl⟩ := List.mem_map.mp ha
    obtain ⟨ev', hev', heq⟩ := List.mem_map.mp hb
    exact absurd (heq ▸ h.given ev hev) (Nat.not_le_of_gt (hext.new_id hev').1)
  · rcases hext.mem hev with ⟨old, hold, hid, -⟩ | ⟨ev', hev', hid, -⟩
    · exact hid ▸ (h.given old hold).trans hext.le_lastEvent
    · exact hid ▸ (hext.new_id hev').2

/-- A change of the queue that has nothing to do with jobs. -/
theorem of_extends (h : Ties extra sys jobs) {new : List Event} (hext : Extends sys sys' new)
    (hnew : ∀ ev ∈ new, ∀ b ∈ ev.blocking, ∃ m, b = .emitMethod m) : Ties extra sys' jobs := by
  obtain ⟨hunique, hgiven, hleaving⟩ := h.grow hext
  refine ⟨hunique, hgiven, fun ev hev id => ?_, fun id e hb => ?_, hleaving, fun ev hev b hb => ?_⟩
  · rcases hext.mem hev with ⟨old, hold, hid, hblocking⟩ | ⟨ev', hev', hid, hblocking⟩
    · rw [← hid, ← hblocking]
      exact h.entries old hold id
    · have hgt : sys.lastEvent < ev.id := hid ▸ (hext.new_id hev').1
      have hblocker : blockerOf jobs id ≠ some ev.id := fun hb =>
        absurd (h.le_lastEvent hb) (Nat.not_le_of_gt hgt)
      rw [if_neg hblocker, h.extra_eq_zero hgt, ← hblocking]
      apply List.count_eq_zero.mpr
      intro hmem
      obtain ⟨m, hm⟩ := hnew ev' hev' _ hmem
      cases hm
  · exact hext.event?_isSome (h.queued id e hb)
  · rcases hext.mem hev with ⟨old, hold, -, hblocking⟩ | ⟨ev', hev', -, hblocking⟩
    · exact h.plain old hold b (hblocking ▸ hb)
    · obtain ⟨m, rfl⟩ := hnew ev' hev' b (hblocking ▸ hb)
      rfl

/-- A call on a job that keeps its frame. -/
theorem frame_job (h : Ties extra sys jobs) (hget : jobs.get? job.id = some job)
    (hf : Frame sys job sys' job') : Ties extra sys' (jobs.put job') := by
  obtain ⟨new, hext, hnew, hor, -⟩ := hf.queue
  obtain ⟨hunique, hgiven, hleaving⟩ := h.grow hext
  have hold := blockerOf_of_get? hget
  have hother : ∀ id, id ≠ job.id → blockerOf (jobs.put job') id = blockerOf jobs id :=
    fun id hid => blockerOf_put_ne (hf.ident ▸ hid)
  have hself : blockerOf (jobs.put job') job.id = job'.blocker := by
    rw [← hf.ident]
    exact blockerOf_put_self
  refine ⟨hunique, hgiven, fun ev hev id => ?_, fun id e hb => ?_, hleaving, fun ev hev b hb => ?_⟩
  · rcases hext.mem hev with ⟨old, hmem, hid, hblocking⟩ | ⟨ev', hev', hid, hblocking⟩
    · rw [← hid, ← hblocking, h.entries old hmem id]
      by_cases hj : id = job.id
      · subst hj
        rw [hself, hold]
        rcases hor with hor | ⟨ev', hev', hor⟩
        · rw [hor]
        · -- the job did not wait before, and does not wait for an old event now
          have hne : job'.blocker ≠ some old.id := fun heq => by
            rw [hor] at heq
            exact absurd (Option.some.inj heq ▸ h.given old hmem)
              (Nat.not_le_of_gt (hext.new_id hev').1)
          have hnone : job.blocker ≠ some old.id := fun heq =>
            hne ((hf.blocked (by simp [heq])).trans heq)
          rw [if_neg hne, if_neg hnone]
      · rw [hother id hj]
    · have hgt : sys.lastEvent < ev.id := hid ▸ (hext.new_id hev').1
      rw [h.extra_eq_zero hgt, ← hblocking, hnew ev' hev', hid]
      by_cases hj : id = job.id
      · subst hj
        rw [hself]
        split <;> simp
      · rw [hother id hj]
        have hblocker : blockerOf jobs id ≠ some ev.id := fun hb =>
          absurd (h.le_lastEvent hb) (Nat.not_le_of_gt hgt)
        rw [if_neg hblocker]
        split
        · simp [Ne.symm hj]
        · simp
  · by_cases hj : id = job.id
    · subst hj
      rw [hself] at hb
      rcases hor with hor | ⟨ev', hev', hor⟩
      · exact hext.event?_isSome (h.queued job.id e (hold.trans (hor.symm.trans hb)))
      · rw [hor] at hb
        have hmem : ev'.id ∈ sys'.events.map Event.id := by
          rw [hext.map_id]
          exact List.mem_append_right _ (List.mem_map_of_mem hev')
        obtain ⟨ev, hev, hid⟩ := List.mem_map.mp hmem
        exact event?_isSome_iff.mpr ⟨ev, hev, hid.trans (Option.some.inj hb)⟩
    · rw [hother id hj] at hb
      exact hext.event?_isSome (h.queued id e hb)
  · rcases hext.mem hev with ⟨old, hmem, -, hblocking⟩ | ⟨ev', hev', -, hblocking⟩
    · exact h.plain old hmem b (hblocking ▸ hb)
    · rw [← hblocking, hnew ev' hev'] at hb
      split at hb
      · rw [List.mem_singleton.mp hb]
        rfl
      · cases hb

/-- A job that waits for no event is written or freed. -/
theorem of_blockers {jobs' : Store Job} (h : Ties extra sys jobs)
    (hb : ∀ id, blockerOf jobs' id = blockerOf jobs id) : Ties extra sys jobs' :=
  ⟨h.unique, h.given, fun ev hev id => by rw [hb, h.entries ev hev id],
    fun id e he => h.queued id e (hb id ▸ he), h.leaving, h.plain⟩

end Ties

end Startup
