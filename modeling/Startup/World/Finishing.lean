import Startup.World.Handling

/-!
# The end of an event keeps the invariant

`event_finished` lets the jobs that wait for the event go on, one entry after the
other.  While a job does, its entry is still in the list: it is the one that
`Slack.extra` counts.  Nobody blocks the event, and no job takes a new block while
it goes on (`jobAdvance_refs_le`), so that no reference is left when the event is
freed.
-/

namespace Startup

open Lib

variable {k : Slack} {x : Host} {sys : Sys} {job : Job} {w : World} {e : EventId}

/-! ## A job that goes on takes no block -/

/-- A job blocks no event more often than another one. -/
def RefsLe (job' job : Job) : Prop := ∀ e, job'.refs.count e ≤ job.refs.count e

theorem RefsLe.of_same {job' : Job} (hstop : job'.stopOn = job.stopOn)
    (hblocking : job'.blocking = job.blocking ∨ job'.blocking = []) : RefsLe job' job := by
  intro e
  rw [Job.refs, Job.refs, hstop, List.count_append, List.count_append]
  rcases hblocking with hb | hb <;> simp [hb]

theorem Enters.refs_le {old : JobState} {pass : Pass} (h : Enters x sys old job pass) :
    pass.Holds (fun _ job' _ => RefsLe job' job) (fun _ job' => RefsLe job' job) := by
  cases h with
  | resumed | running | waiting => exact .of_same rfl (.inr rfl)
  | _ => exact .of_same rfl (.inl rfl)

theorem jobChangeState_refs_le {state : JobState} :
    Sat (jobChangeState x sys job state) (fun r => RefsLe r.2.job job) (fun _ => True) := by
  refine (jobChangeState_rule (I := fun _ job' _ => RefsLe job' job)
    (F := fun _ job' => RefsLe job' job) ?_ (fun _ _ _ _ _ _ _ _ => trivial)
    fun _ => le_refl _).imp ?_
  · intro sys' job' state pass h _ _ hpass
    have hkeep := hpass.refs_le
    cases pass with
    | next => exact fun e => (hkeep e).trans (h e)
    | freed => exact fun e => (hkeep e).trans (h e)
  · rintro ⟨sys', job' | job'⟩ h
    · obtain ⟨_, h, -⟩ := h
      exact h
    · exact h

theorem jobNextState_refs (job : Job) :
    Sat (jobNextState job) (fun r => RefsLe r.1 job) (fun _ => True) := by
  unfold jobNextState
  cases job.state <;> cases job.goal <;> first
    | exact RefsLe.of_same rfl (.inl rfl)
    | trivial
    | (dsimp only; split <;> exact RefsLe.of_same rfl (.inl rfl))

theorem jobAdvance_refs_le :
    Sat (jobAdvance x sys job) (fun r => RefsLe r.2.job job) (fun _ => True) := by
  unfold jobAdvance
  rw [sat_bind]
  refine (jobNextState_refs job).imp fun r hr => ?_
  exact jobChangeState_refs_le.imp fun r' hr' e => (hr' e).trans (hr e)

/-! ## Blocks are only given back -/

/-- No event is blocked more often than before. -/
def BlockersLe (sys' sys : Sys) : Prop := ∀ e, sys'.blockers e ≤ sys.blockers e

theorem BlockersLe.trans {sys sys' sys'' : Sys} (h : BlockersLe sys'' sys')
    (h' : BlockersLe sys' sys) : BlockersLe sys'' sys := fun e => (h e).trans (h' e)

theorem unblockAll_le {es : List EventId} :
    Sat (unblockAll sys es) (fun sys' => BlockersLe sys' sys) (fun _ => True) := by
  induction es generalizing sys with
  | nil => exact fun _ => le_refl _
  | cons e es ih =>
    rw [unblockAll, List.foldlM_cons, sat_bind]
    refine eventUnblock_sat.mono (fun sys₁ h₁ => ?_) fun _ _ => trivial
    refine ih.imp fun sys₂ h₂ => h₂.trans fun e' => ?_
    have := h₁.2 e'
    omega

theorem destroyOperator_le {root : Option EventOperator} :
    Sat (destroyOperator sys root) (fun sys' => BlockersLe sys' sys) (fun _ => True) := by
  cases root with
  | none => exact fun _ => le_refl _
  | some root => exact unblockAll_le

theorem freeClass_le {cls : ClassState} :
    Sat (freeClass w cls) (fun w' => BlockersLe w'.sys w.sys) (fun _ => True) := by
  have hfold : ∀ (jobs : List Job) (sys : Sys),
      Sat (jobs.foldlM (fun sys job => destroyOperator sys job.stopOn) sys)
        (fun sys' => BlockersLe sys' sys) (fun _ => True) := by
    intro jobs
    induction jobs with
    | nil => exact fun _ _ => le_refl _
    | cons job jobs ih =>
      intro sys
      rw [List.foldlM_cons, sat_bind]
      exact destroyOperator_le.imp fun sys₁ h₁ => (ih sys₁).imp fun _ h₂ => h₂.trans h₁
  unfold freeClass
  rw [sat_bind]
  refine destroyOperator_le.imp fun sys₁ h₁ => ?_
  rw [sat_bind]
  refine destroyOperator_le.imp fun sys₂ h₂ => ?_
  rw [sat_bind]
  exact (hfold _ sys₂).imp fun sys₃ h₃ => h₃.trans (h₂.trans h₁)

theorem jobClassReconsider_sys {c : ClassId} :
    Sat (jobClassReconsider w c) (fun r => r.1.sys = w.sys) (fun _ => True) := by
  have hadd : ∀ w' best, w'.sys = w.sys →
      Sat (jobClassAdd w' best) (fun w'' => w''.sys = w.sys) (fun _ => True) := by
    intro w' best hw'
    unfold jobClassAdd
    split
    · exact hw'
    · rw [sat_bind]
      exact (sat_true (m := World.getClass _ _ _)).imp fun _ _ => hw'
  unfold jobClassReconsider
  rw [sat_bind]
  refine (sat_true (m := World.getClass _ _ _)).imp fun cls _ => ?_
  rw [sat_bind]
  refine (sat_true (m := confSelectJob _ _)).imp fun best _ => ?_
  unfold jobClassRemove
  split
  · split
    · rfl
    · split <;> rename_i heq
      · split at heq <;> cases heq
        rw [sat_bind]
        exact (hadd { w with registered := w.registered.erase cls.config.name } best rfl).imp
          fun _ h => h
      · split at heq <;> cases heq
        rfl
  · rfl

theorem jobDestroy_le : Sat (jobDestroy w job) (fun w' => BlockersLe w'.sys w.sys)
    (fun _ => True) := by
  unfold jobDestroy
  dsimp only
  rw [sat_bind]
  refine jobClassReconsider_sys.imp ?_
  rintro ⟨w₁, unused⟩ hsys
  dsimp only at hsys ⊢
  rw [sat_bind]
  refine (sat_true (m := World.getClass _ _ _)).imp fun cls _ => ?_
  rw [sat_bind]
  refine destroyOperator_le.imp fun sys h => ?_
  rw [hsys] at h
  split
  · exact freeClass_le.imp fun w' h' => h'.trans h
  · exact h

theorem withJob_le {fn : SourceFn} {id : JobId} {f : Sys → Job → Except Fault (Sys × JobRef)}
    (hf : ∀ job, w.jobs.get? id = some job → ∃ job₀ : Job, job₀.refs = job.refs ∧
      Framed w.sys job₀ (f w.sys job) ∧
      Sat (f w.sys job) (fun r => RefsLe r.2.job job) (fun _ => True)) :
    Sat (withJob w fn id f) (fun w' => BlockersLe w'.sys w.sys) (fun _ => True) := by
  unfold withJob
  cases hget : w.jobs.get? id with
  | none => trivial
  | some job =>
    obtain ⟨job₀, hrefs, hframed, hle⟩ := hf job hget
    dsimp only
    rw [sat_bind]
    refine (hframed.and hle).mono ?_ fun _ _ => trivial
    have hsys : ∀ r : Sys × JobRef, Frame w.sys job₀ r.1 r.2.job → RefsLe r.2.job job →
        BlockersLe r.1 w.sys := by
      intro r hframe hle e
      have h₁ := hframe.balance e
      have h₂ := hle e
      rw [hrefs] at h₁
      omega
    rintro ⟨sys, job' | job'⟩ ⟨hframe, hle⟩
    · exact hsys _ hframe hle
    · exact jobDestroy_le.imp fun w' h' => h'.trans (hsys _ hframe hle)

/-! ## An entry that is on its way out -/

/-- The entry of a job in the list of an event. -/
def entryOf (e : EventId) (entry : Blocked) (e' : EventId) (id : JobId) : Nat :=
  if e' = e ∧ entry = .job id then 1 else 0

theorem event?_of_mem {sys : Sys} (h : (sys.events.map Event.id).Nodup) {ev : Event}
    (hev : ev ∈ sys.events) : sys.event? ev.id = some ev := by
  cases hf : sys.event? ev.id with
  | none =>
    have := List.find?_eq_none.mp hf ev hev
    simp at this
  | some ev' =>
    obtain ⟨hev', hid⟩ := mem_of_event? hf
    rw [List.inj_on_of_nodup_map h hev' hev hid]

/-- A job that waits for an event goes on: its entry is on its way out. -/
theorem SoundWith.resumeJob (h : SoundWith k w) (hk : k.extra = 0) {sys : Sys} {job job' : Job}
    (hget : w.jobs.get? job.id = some job) (hblocker : job.blocker = some e)
    (hf : Frame w.sys { job with blocker := none } sys job')
    (hset : Settled (· ≠ .security) job') :
    SoundWith { k with extra := entryOf e (.job job.id) } ((w.setSys sys).putJob job') := by
  have hold : blockerOf w.jobs job.id = some e := (blockerOf_of_get? hget).trans hblocker
  have hself : blockerOf (w.jobs.put { job with blocker := none }) job.id = none :=
    blockerOf_put_self
  have hother : ∀ id, id ≠ job.id →
      blockerOf (w.jobs.put { job with blocker := none }) id = blockerOf w.jobs id :=
    fun id hid => blockerOf_put_ne hid
  have hties : Ties (entryOf e (.job job.id)) w.sys (w.jobs.put { job with blocker := none }) := by
    refine ⟨h.ties.unique, h.ties.given, fun ev hev id => ?_, fun id e' hb => ?_,
      fun e' id hne => ?_, h.ties.plain⟩
    · have hcount := h.ties.entries ev hev id
      rw [hk] at hcount
      rw [hcount]
      by_cases hid : id = job.id
      · rw [hid, hold, hself]
        simp [entryOf, eq_comm]
      · rw [hother id hid]
        simp [entryOf, Ne.symm hid]
    · by_cases hid : id = job.id
      · rw [hid, hself] at hb
        cases hb
      · rw [hother id hid] at hb
        exact h.ties.queued id e' hb
    · have he : e' = e := by
        by_contra hne'
        simp [entryOf, hne'] at hne
      rw [he]
      exact h.ties.le_lastEvent hold
  obtain ⟨new, hext, -⟩ := hf.queue
  have hput : (w.jobs.put { job with blocker := none }).put job' = w.jobs.put job' :=
    Store.put_put hf.ident.symm
  have hget₀ : (w.jobs.put { job with blocker := none }).get?
      ({ job with blocker := none } : Job).id = some { job with blocker := none } :=
    Store.get?_put_self
  have hframe := hties.frame_job hget₀ hf
  rw [hput] at hframe
  have hmem := Store.mem_of_get? hget
  refine ⟨h.accounts.put_job (fun e' => ?_) (hf.entries (h.accounts.entries job hmem))
      (hf.linked (h.accounts.leaves job hmem)), hframe, ⟨fun j hj => ?_, h.housing.known⟩,
    fun _ => h.unfinished hext, h.classIds, fun j hj => ?_, fun j hj => ?_,
    h.names.put hget hf.ident hf.classId hf.name⟩
  · rw [show job'.id = job.id from hf.ident, hget]
    exact hf.balance e'
  · rcases Store.mem_put.mp hj with rfl | ⟨hj, -⟩
    · rw [hf.classId]
      exact h.housing.homes job hmem
    · exact h.housing.homes j hj
  · rcases Store.mem_put.mp hj with rfl | ⟨hj, -⟩
    · rw [hf.ident]
      exact h.jobIds job hmem
    · exact h.jobIds j hj
  · rcases Store.mem_put.mp hj with rfl | ⟨hj, -⟩
    · exact hset
    · exact h.settled j hj

/-- The first entry of an event is freed. -/
theorem SoundWith.dropEntry {entry : Blocked} {rest : List Blocked} {ev : Event}
    (h : SoundWith { k with extra := entryOf e entry } w) (hev : w.sys.event? e = some ev)
    (hblocking : ev.blocking = entry :: rest) :
    SoundWith { k with extra := 0 }
      (w.setSys (w.sys.modifyEvent e fun ev => { ev with blocking := ev.blocking.drop 1 })) := by
  have hids : ∀ e', ((w.sys.modifyEvent e fun ev =>
      { ev with blocking := ev.blocking.drop 1 }).event? e').isSome = (w.sys.event? e').isSome := by
    intro e'
    rw [event?_modifyEvent (f := fun ev => { ev with blocking := ev.blocking.drop 1 })
      fun _ => rfl]
    simp
  have hblockers : ∀ e', (w.sys.modifyEvent e fun ev =>
      { ev with blocking := ev.blocking.drop 1 }).blockers e' = w.sys.blockers e' := by
    intro e'
    rw [blockers_modifyEvent (f := fun ev => { ev with blocking := ev.blocking.drop 1 })
      fun _ => rfl]
    split
    · rename_i heq
      rw [heq]
      rfl
    · rfl
  have hmem : ∀ ev' ∈ (w.sys.modifyEvent e fun ev =>
      { ev with blocking := ev.blocking.drop 1 }).events, ∃ old ∈ w.sys.events,
      ev' = if old.id = e then { old with blocking := old.blocking.drop 1 } else old := by
    intro ev' hev'
    obtain ⟨old, hold, rfl⟩ := List.mem_map.mp hev'
    exact ⟨old, hold, rfl⟩
  have hid : ∀ old : Event,
      (if old.id = e then { old with blocking := old.blocking.drop 1 } else old).id = old.id := by
    intro old
    split <;> rfl
  refine ⟨h.accounts.of_blockers hblockers, ⟨?_, fun ev' hev' => ?_, fun ev' hev' id => ?_,
    fun id e' hb => ?_, fun e' id hne => absurd rfl hne, fun ev' hev' b hb => ?_⟩, h.housing,
    fun ev' hev' hfin => ?_, h.classIds, h.jobIds, h.settled, h.names⟩
  · have hmap : (w.sys.modifyEvent e fun ev =>
        { ev with blocking := ev.blocking.drop 1 }).events.map Event.id =
        w.sys.events.map Event.id := by
      rw [Sys.modifyEvent, List.map_map]
      exact List.map_congr_left fun old _ => hid old
    exact hmap ▸ h.ties.unique
  · obtain ⟨old, hold, rfl⟩ := hmem ev' hev'
    rw [hid]
    exact h.ties.given old hold
  · obtain ⟨old, hold, rfl⟩ := hmem ev' hev'
    rw [hid]
    have hcount := h.ties.entries old hold id
    split
    · rename_i heq
      have hsame : old = ev := by
        have := event?_of_mem h.ties.unique hold
        rw [heq, hev] at this
        exact (Option.some.inj this).symm
      rw [hsame, hblocking, List.count_cons] at hcount
      rw [hsame, hblocking]
      have hextra : entryOf e entry ev.id id = if entry == .job id then 1 else 0 := by
        simp [entryOf, ← hsame, heq]
      dsimp only at hcount
      rw [hextra] at hcount
      have hrest : rest.count (.job id) = if blockerOf w.jobs id = some ev.id then 1 else 0 := by
        simpa using hcount
      exact hrest
    · rename_i hne
      have hextra : entryOf e entry old.id id = 0 := by simp [entryOf, hne]
      dsimp only at hcount
      rw [hextra] at hcount
      exact hcount
  · exact (hids e').trans (h.ties.queued id e' hb)
  · obtain ⟨old, hold, rfl⟩ := hmem ev' hev'
    apply h.ties.plain old hold
    split at hb
    · exact List.mem_of_mem_drop hb
    · exact hb
  · obtain ⟨old, hold, rfl⟩ := hmem ev' hev'
    rw [hid]
    refine h.progress old hold ?_
    split at hfin <;> exact hfin

/-! ## The entries of an event -/

/-- What has become of the job at an address. -/
def JobRef.At (w : World) (id : JobId) : JobRef → Prop
  | .live job => w.jobs.get? id = some job
  | .freed _ => w.jobs.get? id = none

/-- Between two states each of some jobs has gone on once, with no event to wait for, and every
other job is as it was. -/
structure GoneOn (x : Host) (goes : JobId → Prop) (w w' : World) : Prop where
  log : w.sys.log <:+ w'.sys.log
  once : ∀ id job, goes id → w.jobs.get? id = some job → ∃ sys r, w.sys.log <:+ sys.log ∧
    jobAdvance x sys { job with blocker := none } = .ok r ∧ r.1.log <:+ w'.sys.log ∧ r.2.At w' id
  others : ∀ id, ¬ goes id → w'.jobs.get? id = w.jobs.get? id

theorem JobRef.At.congr {w w' : World} {id : JobId} {ref : JobRef} (h : ref.At w id)
    (hsame : w'.jobs.get? id = w.jobs.get? id) : ref.At w' id := by
  cases ref with
  | live job => exact hsame.trans h
  | freed job => exact hsame.trans h

namespace GoneOn

variable {goes goes' : JobId → Prop} {w' w'' : World}

/-- No job goes on. -/
theorem idle (hlog : w.sys.log <:+ w'.sys.log) (hjobs : w'.jobs = w.jobs)
    (hnone : ∀ id, ¬ goes id) : GoneOn x goes w w' :=
  ⟨hlog, fun id _ hgoes => absurd hgoes (hnone id), fun _ _ => by rw [hjobs]⟩

theorem trans (h : GoneOn x goes w w') (h' : GoneOn x goes' w' w'')
    (hdisjoint : ∀ id, goes id → ¬ goes' id) :
    GoneOn x (fun id => goes id ∨ goes' id) w w'' := by
  refine ⟨h.log.trans h'.log, fun id job hgoes hget => ?_, fun id hnone => ?_⟩
  · by_cases hfirst : goes id
    · obtain ⟨sys, r, hsys, hadvance, hlog, hat⟩ := h.once id job hfirst hget
      exact ⟨sys, r, hsys, hadvance, hlog.trans h'.log,
        hat.congr (h'.others id (hdisjoint id hfirst))⟩
    · have hget' := (h.others id hfirst).trans hget
      obtain ⟨sys, r, hsys, hadvance, hlog, hat⟩ :=
        h'.once id job (hgoes.resolve_left hfirst) hget'
      exact ⟨sys, r, h.log.trans hsys, hadvance, hlog, hat⟩
  · obtain ⟨hfirst, hsecond⟩ := not_or.mp hnone
    exact (h'.others id hsecond).trans (h.others id hfirst)

theorem imp (h : GoneOn x goes w w') (hiff : ∀ id, goes id ↔ goes' id) : GoneOn x goes' w w' :=
  ⟨h.log, fun id job hgoes => h.once id job ((hiff id).mpr hgoes),
    fun id hnone => h.others id fun hgoes => hnone ((hiff id).mp hgoes)⟩

/-- A job has gone on from the queue as it was. -/
theorem one {job : Job} {r : Sys × JobRef} (hget : w.jobs.get? job.id = some job)
    (hadvance : jobAdvance x w.sys { job with blocker := none } = .ok r)
    (hlog : w.sys.log <:+ w'.sys.log) (hrlog : r.1.log <:+ w'.sys.log) (hat : r.2.At w' job.id)
    (hothers : ∀ id, id ≠ job.id → w'.jobs.get? id = w.jobs.get? id) :
    GoneOn x (fun id => .job id ∈ [Blocked.job job.id]) w w' := by
  have honly : ∀ id, Blocked.job id ∈ [Blocked.job job.id] ↔ id = job.id := fun id => by simp
  refine ⟨hlog, fun id job₀ hid hget₀ => ?_, fun id hne => hothers id fun hid =>
    hne ((honly id).mpr hid)⟩
  rw [honly] at hid
  subst hid
  rw [hget] at hget₀
  cases hget₀
  exact ⟨_, r, List.suffix_refl _, hadvance, hrlog, hat⟩

/-- The queue changes before the jobs go on, or afterwards. -/
theorem setSys {sys sys' : Sys} (h : GoneOn x goes w w') (hlog : sys.log = w.sys.log)
    (hlog' : w'.sys.log <:+ sys'.log) : GoneOn x goes (w.setSys sys) (w'.setSys sys') := by
  refine ⟨(hlog ▸ h.log).trans hlog', fun id job hgoes hget => ?_, h.others⟩
  obtain ⟨sys₁, r, hsys, hadvance, hrlog, hat⟩ := h.once id job hgoes hget
  exact ⟨sys₁, r, hlog ▸ hsys, hadvance, hrlog.trans hlog', hat.congr rfl⟩

end GoneOn

theorem Extends.suffix {sys sys' : Sys} {new : List Event} (h : Extends sys sys' new) :
    sys.log <:+ sys'.log := by
  obtain ⟨acts, hlog⟩ := h.log
  exact ⟨acts, hlog.symm⟩

/-- What holds while `event_finished` goes through the entries of an event: the
list still has `rest`, and nobody blocks the event. -/
structure Ending (leak : EventId → Nat) (e : EventId) (rest : List Blocked) (w : World) :
    Prop where
  sound : SoundWith ⟨leak, some e, 0⟩ w
  event : ∃ ev, w.sys.event? e = some ev ∧ ev.blocking = rest
  unblocked : w.sys.blockers e = 0

/-- The entries of an event stay while the queue grows. -/
theorem Extends.event? {sys sys' : Sys} {new : List Event} (h : Extends sys sys' new)
    (hunique : (sys'.events.map Event.id).Nodup) {ev : Event} (hev : sys.event? e = some ev) :
    ∃ ev', sys'.event? e = some ev' ∧ ev'.bare = ev.bare := by
  obtain ⟨hmem, hid⟩ := mem_of_event? hev
  have hbare : ev.bare ∈ sys'.events.map Event.bare := by
    rw [h.events]
    exact List.mem_append_left _ (List.mem_map_of_mem hmem)
  obtain ⟨ev', hev', heq⟩ := List.mem_map.mp hbare
  have hid' : ev'.bare.id = ev.bare.id := by rw [heq]
  have hid' : ev'.id = e := hid'.trans hid
  exact ⟨ev', hid' ▸ event?_of_mem hunique hev', heq⟩

/-- What an event says, and how far it has come. -/
def Event.face (ev : Event) : EventId × String × List String × EventProgress :=
  (ev.id, ev.name, ev.env, ev.progress)

/-- The events `new` have been added at the end of the queue; of the others only
those that wait have changed. -/
structure Grows (sys sys' : Sys) (new : List Event) : Prop where
  faces : sys'.events.map Event.face = sys.events.map Event.face ++ new.map Event.face
  ids : new.map Event.id = List.range' (sys.lastEvent + 1) new.length
  lastEvent : sys'.lastEvent = sys.lastEvent + new.length
  pending : ∀ ev ∈ new, ev.progress = .pending

namespace Grows

variable {sys sys' sys'' : Sys} {new new' : List Event}

theorem refl (sys : Sys) : Grows sys sys [] := ⟨by simp, rfl, rfl, by simp⟩

theorem trans (h : Grows sys sys' new) (h' : Grows sys' sys'' new') :
    Grows sys sys'' (new ++ new') := by
  refine ⟨?_, ?_, ?_, fun ev hev => (List.mem_append.mp hev).elim (h.pending ev) (h'.pending ev)⟩
  · rw [h'.faces, h.faces, List.map_append, List.append_assoc]
  · rw [List.map_append, h.ids, h'.ids, h.lastEvent, List.length_append, ← List.range'_append_1,
      Nat.add_right_comm]
  · rw [h'.lastEvent, h.lastEvent, List.length_append, Nat.add_assoc]

/-- Who waits for an event is no part of it. -/
theorem modifyEvent {f : Event → Event} (h : Grows sys sys' new)
    (hf : ∀ ev, (f ev).face = ev.face) (e : EventId) : Grows sys (sys'.modifyEvent e f) new := by
  refine ⟨?_, h.ids, h.lastEvent, h.pending⟩
  rw [← h.faces, Sys.modifyEvent, List.map_map]
  refine List.map_congr_left fun ev _ => ?_
  show (if ev.id = e then f ev else ev).face = ev.face
  split
  · exact hf ev
  · rfl

end Grows

theorem Extends.grows {sys sys' : Sys} {new : List Event} (h : Extends sys sys' new) :
    Grows sys sys' new := by
  have hbare : ∀ evs : List Event, evs.map Event.face = (evs.map Event.bare).map Event.face := by
    intro evs
    rw [List.map_map]
    rfl
  refine ⟨?_, h.ids, h.lastEvent, h.pending⟩
  rw [hbare, h.events, List.map_append, ← hbare]

/-- The queue has grown by events of jobs. -/
def GrowsByJobs (sys sys' : Sys) : Prop :=
  ∃ new, Grows sys sys' new ∧ ∀ ev ∈ new, ev.ofJob

theorem GrowsByJobs.trans {sys sys' sys'' : Sys} (h : GrowsByJobs sys sys')
    (h' : GrowsByJobs sys' sys'') : GrowsByJobs sys sys'' := by
  obtain ⟨new, hgrows, hnamed⟩ := h
  obtain ⟨new', hgrows', hnamed'⟩ := h'
  refine ⟨new ++ new', hgrows.trans hgrows', fun ev hev => ?_⟩
  exact (List.mem_append.mp hev).elim (hnamed ev) (hnamed' ev)

/-- An entry that has been acted on is freed. -/
theorem Ending.drop {leak : EventId → Nat} {entry : Blocked} {rest : List Blocked} {w₁ : World}
    (h : Ending leak e (entry :: rest) w) (h₁ : SoundWith ⟨leak, some e, entryOf e entry⟩ w₁)
    (hqueue : ∃ new, Extends w.sys w₁.sys new ∧ ∀ ev ∈ new, ev.ofJob)
    (hle : BlockersLe w₁.sys w.sys) (hgone : GoneOn x (fun id => .job id ∈ [entry]) w w₁) :
    Ending leak e rest
        (w₁.setSys (w₁.sys.modifyEvent e fun ev => { ev with blocking := ev.blocking.drop 1 })) ∧
      GrowsByJobs w.sys
        (w₁.sys.modifyEvent e fun ev => { ev with blocking := ev.blocking.drop 1 }) ∧
      GoneOn x (fun id => .job id ∈ [entry]) w (w₁.setSys (w₁.sys.modifyEvent e fun ev =>
        { ev with blocking := ev.blocking.drop 1 })) := by
  obtain ⟨-, ⟨ev, hev, hblocking⟩, hzero⟩ := h
  obtain ⟨new, hext, hnamed⟩ := hqueue
  obtain ⟨ev₁, hev₁, hbare⟩ := hext.event? h₁.ties.unique hev
  have hblocking₁ : ev₁.bare.blocking = ev.bare.blocking := by rw [hbare]
  have hblocking₁ : ev₁.blocking = entry :: rest := hblocking₁.trans hblocking
  have hid : ev₁.id = e := (mem_of_event? hev₁).2
  refine ⟨⟨SoundWith.dropEntry (k := ⟨leak, some e, 0⟩) h₁ hev₁ hblocking₁,
    ⟨{ ev₁ with blocking := rest }, ?_, rfl⟩, ?_⟩,
    ⟨new, hext.grows.modifyEvent
      (f := fun ev => { ev with blocking := ev.blocking.drop 1 }) (fun _ => rfl) e, hnamed⟩,
    hgone.setSys rfl (List.suffix_refl _)⟩
  · show (w₁.sys.modifyEvent e _).event? e = _
    rw [event?_modifyEvent (f := fun ev => { ev with blocking := ev.blocking.drop 1 })
      fun _ => rfl, hev₁]
    simp [hid, hblocking₁]
  · show (w₁.sys.modifyEvent e _).blockers e = 0
    rw [blockers_modifyEvent (f := fun ev => { ev with blocking := ev.blocking.drop 1 })
      fun _ => rfl, if_pos rfl]
    have := hle e
    rw [Sys.blockers, hev₁] at this
    rw [hev₁]
    simp only [Option.map_some, Option.getD_some] at this ⊢
    omega

/-- The job of an entry waits for the event. -/
theorem Ending.waits {leak : EventId → Nat} {id : JobId} {rest : List Blocked}
    (h : Ending leak e (.job id :: rest) w) :
    ∃ job, w.jobs.get? id = some job ∧ job.id = id ∧ job.blocker = some e := by
  obtain ⟨hsound, ⟨ev, hev, hblocking⟩, -⟩ := h
  have hcount := hsound.ties.entries ev (mem_of_event? hev).1 id
  rw [hblocking, List.count_cons_self, (mem_of_event? hev).2] at hcount
  have hblocker : blockerOf w.jobs id = some e := by
    by_contra hne
    rw [if_neg hne] at hcount
    exact absurd hcount (by simp)
  obtain ⟨job, hget, hjob⟩ := Option.bind_eq_some_iff.mp hblocker
  exact ⟨job, hget, Store.key_of_get? hget, hjob⟩

/-- A job that went on from an event and is still there is kept. -/
theorem SoundWith.keepFinished {leak : EventId → Nat} {job job' : Job} {sys : Sys}
    (h : SoundWith ⟨leak, some e, 0⟩ w) (hget : w.jobs.get? job.id = some job)
    (hjob : job.blocker = some e)
    (hadvance : blockerFinished x w.sys job = .ok (sys, .live job'))
    (hframe : Frame w.sys { job with blocker := none } sys job')
    (hset : Settled (· ≠ .security) job') :
    SoundWith ⟨leak, some e, entryOf e (.job job.id)⟩ ((w.setSys sys).putJob job') ∧
      (∃ new, Extends w.sys ((w.setSys sys).putJob job').sys new ∧ ∀ ev ∈ new, ev.ofJob) ∧
      GoneOn x (fun id => .job id ∈ [Blocked.job job.id]) w ((w.setSys sys).putJob job') := by
  obtain ⟨new, hext, hlink⟩ := hframe.queue
  refine ⟨h.resumeJob rfl hget hjob hframe hset, ⟨new, hext, hlink.2.2⟩,
    .one hget hadvance hext.suffix (List.suffix_refl _) ?_ fun id hne => ?_⟩
  · show (w.jobs.put job').get? job.id = some job'
    rw [← show job'.id = job.id from hframe.ident]
    exact Store.get?_put_self
  · exact Store.get?_put_ne (show id ≠ job'.id from hframe.ident ▸ hne)

/-- A job that went on from an event and was freed is destroyed. -/
theorem SoundWith.destroyFinished {leak : EventId → Nat} {job job' : Job} {sys : Sys}
    (h : SoundWith ⟨leak, some e, 0⟩ w) (hget : w.jobs.get? job.id = some job)
    (hjob : job.blocker = some e)
    (hadvance : blockerFinished x w.sys job = .ok (sys, .freed job'))
    (hframe : Frame w.sys { job with blocker := none } sys job')
    (hnil : job'.blocking = []) (hnone : job'.blocker = none) :
    Sat (jobDestroy (w.setSys sys) job')
      (fun w' => SoundWith ⟨leak, some e, entryOf e (.job job.id)⟩ w' ∧
        (∃ new, Extends w.sys w'.sys new ∧ ∀ ev ∈ new, ev.ofJob) ∧
          GoneOn x (fun id => .job id ∈ [Blocked.job job.id]) w w')
      (fun f => f.ofQueue = false) := by
  obtain ⟨new, hext, hlink⟩ := hframe.queue
  have hwaiting : Settled (· ≠ .security) { job' with state := .waiting, goal := .stop } := by
    refine ⟨?_, ?_, ?_, ?_, ?_, ?_⟩ <;> simp [hnone, JobState.spawning?, JobState.driver]
  have hframe' : Frame w.sys { job with blocker := none } sys
      { job' with state := .waiting, goal := .stop } :=
    hframe.trans (.of_same rfl rfl rfl rfl rfl rfl rfl)
  have hput := h.resumeJob rfl hget hjob hframe' hwaiting
  have hdestroy := jobDestroy_sat hput Store.get?_put_self hnil hnone
  rw [jobDestroy_putJob] at hdestroy
  refine Sat.imp hdestroy ?_
  rintro w' ⟨h', hjobs⟩
  obtain ⟨new', hext', hnamed'⟩ := h'.queue
  have hident : job'.id = job.id := hframe.ident
  have hjobs : w'.jobs = w.jobs.erase job.id := by
    rw [hjobs, ← hident]
    exact Store.erase_put
  refine ⟨h'.sound, ⟨_, hext.trans hext', fun ev hev => ?_⟩,
    .one hget hadvance (hext.suffix.trans hext'.suffix) hext'.suffix ?_ fun id hne => ?_⟩
  · exact (List.mem_append.mp hev).elim (hlink.2.2 ev) (hnamed' ev)
  · show w'.jobs.get? job.id = none
    rw [hjobs]
    exact Store.get?_erase_self
  · rw [hjobs]
    exact Store.get?_erase_ne hne

/-- The job of an entry goes on. -/
theorem SoundWith.finishJob {leak : EventId → Nat} {job : Job}
    (h : SoundWith ⟨leak, some e, 0⟩ w) (hget : w.jobs.get? job.id = some job)
    (hjob : job.blocker = some e) :
    Sat (withJob w .eventFinished job.id (blockerFinished x))
      (fun w' => SoundWith ⟨leak, some e, entryOf e (.job job.id)⟩ w' ∧
        (∃ new, Extends w.sys w'.sys new ∧ ∀ ev ∈ new, ev.ofJob) ∧
          GoneOn x (fun id => .job id ∈ [Blocked.job job.id]) w w')
      (fun f => f.ofQueue = false) := by
  have hmem := Store.mem_of_get? hget
  have hframed : Framed w.sys { job with blocker := none } (blockerFinished x w.sys job) :=
    blockerFinished_frame (h.accounts.owned hmem)
  have hsettling : Settling (· ≠ .security) (blockerFinished x w.sys job) :=
    blockerFinished_settled (h.settled job hmem)
  have hspends : Spends (blockerFinished x w.sys job) := jobAdvance_spent
  have hreturns : Sat (blockerFinished x w.sys job)
      (fun r => blockerFinished x w.sys job = .ok r) (fun _ => True) :=
    sat_iff.mpr ⟨fun _ hr => hr, fun _ _ => trivial⟩
  unfold withJob
  rw [hget]
  dsimp only
  rw [sat_bind]
  refine (((hframed.and hsettling).and hspends).and hreturns).mono ?_ fun _ hE => hE.1.1.1
  rintro ⟨sys, job' | job'⟩ ⟨⟨⟨hframe, hset⟩, hspent⟩, hadvance⟩
  · exact h.keepFinished hget hjob hadvance hframe hset
  · exact h.destroyFinished hget hjob hadvance hframe hspent.1 hspent.2

theorem finishEntry_sat {leak : EventId → Nat} {entry : Blocked} {rest : List Blocked}
    (h : Ending leak e (entry :: rest) w) :
    Sat (finishEntry x e w entry)
      (fun w' => Ending leak e rest w' ∧ GrowsByJobs w.sys w'.sys ∧
        GoneOn x (fun id => .job id ∈ [entry]) w w')
      (fun f => f.ofQueue = false) := by
  cases entry with
  | job id =>
    obtain ⟨job, hget, rfl, hjob⟩ := h.waits
    -- the blocks of the rest of init
    have hle : Sat (withJob w .eventFinished job.id (blockerFinished x))
        (fun w' => BlockersLe w'.sys w.sys) (fun _ => True) := by
      refine withJob_le fun job' hget' => ?_
      rw [hget] at hget'
      cases hget'
      exact ⟨{ job with blocker := none }, rfl,
        blockerFinished_frame (h.sound.accounts.owned (Store.mem_of_get? hget)),
        jobAdvance_refs_le⟩
    dsimp only [finishEntry]
    rw [sat_bind]
    refine ((h.sound.finishJob hget hjob).and hle).mono ?_ fun _ hE => hE.1
    rintro w₁ ⟨⟨h₁, hqueue, hgone⟩, hle⟩
    exact h.drop h₁ hqueue hle hgone
  | emitMethod m =>
    obtain ⟨ev, hev, -⟩ := h.event
    dsimp only [finishEntry]
    rw [hev]
    have hact := h.sound.act (.replied m (!ev.failed))
    have hnone : entryOf e (.emitMethod m) = 0 := by
      funext e' id
      simp [entryOf]
    refine h.drop ?_ hact.queue (fun _ => le_refl _)
      (.idle (List.suffix_cons _ _) rfl fun id => by simp)
    rw [hnone]
    exact hact.sound
  | _ => exact rfl

/-- An event has at most one entry for a job. -/
theorem Ending.not_mem {leak : EventId → Nat} {entry : Blocked} {rest : List Blocked}
    (h : Ending leak e (entry :: rest) w) {id : JobId} (hid : .job id ∈ [entry]) :
    .job id ∉ rest := by
  obtain ⟨ev, hev, hblocking⟩ := h.event
  have hcount := h.sound.ties.entries ev (mem_of_event? hev).1 id
  rw [hblocking, ← List.mem_singleton.mp hid, List.count_cons_self] at hcount
  intro hmem
  have hpos := List.count_pos_iff.mpr hmem
  dsimp only [Pi.zero_apply] at hcount
  split at hcount <;> omega

/-- All entries of an event are gone through. -/
theorem foldlM_finishEntry_sat {leak : EventId → Nat} {entries : List Blocked}
    (h : Ending leak e entries w) :
    Sat (entries.foldlM (finishEntry x e) w)
      (fun w' => Ending leak e [] w' ∧ GrowsByJobs w.sys w'.sys ∧
        GoneOn x (fun id => .job id ∈ entries) w w')
      (fun f => f.ofQueue = false) := by
  induction entries generalizing w with
  | nil => exact ⟨h, ⟨[], .refl _, by simp⟩, .idle (List.suffix_refl _) rfl fun id => by simp⟩
  | cons entry rest ih =>
    rw [List.foldlM_cons, sat_bind]
    refine (finishEntry_sat h).imp ?_
    rintro w₁ ⟨h₁, hgrows₁, hgone₁⟩
    refine (ih h₁).imp ?_
    rintro w₂ ⟨h₂, hgrows₂, hgone₂⟩
    refine ⟨h₂, hgrows₁.trans hgrows₂, (hgone₁.trans hgone₂ fun id => h.not_mem).imp fun id => ?_⟩
    rw [List.mem_singleton, List.mem_cons]

/-! ## The end -/

theorem event?_removeEvent (sys : Sys) (e e' : EventId) :
    (sys.removeEvent e).event? e' = if e' = e then none else sys.event? e' := by
  rw [Sys.event?, Sys.removeEvent, List.find?_filter]
  split
  · rename_i heq
    refine List.find?_eq_none.mpr fun ev _ => ?_
    simp [heq]
  · rename_i hne
    rw [Sys.event?]
    congr 1
    funext ev
    by_cases hid : ev.id = e'
    · simp [hid, hne]
    · simp [hid]

/-- An event without entries that nobody blocks is freed. -/
theorem Ending.removeEvent {leak : EventId → Nat} (h : Ending leak e [] w) :
    WorldSound leak (w.setSys (w.sys.removeEvent e)) := by
  obtain ⟨hsound, ⟨ev, hev, hblocking⟩, hzero⟩ := h
  have hsub : List.Sublist (w.sys.removeEvent e).events w.sys.events := List.filter_sublist
  refine ⟨hsound.accounts.of_blockers fun e' => ?_,
    ⟨hsound.ties.unique.sublist (hsub.map Event.id),
      fun ev' hev' => hsound.ties.given ev' (hsub.subset hev'),
      fun ev' hev' id => hsound.ties.entries ev' (hsub.subset hev') id, fun id e' hb => ?_,
      fun e' id hne => absurd rfl hne, fun ev' hev' => hsound.ties.plain ev' (hsub.subset hev')⟩,
    hsound.housing, fun ev' hev' hfin => ?_, hsound.classIds, hsound.jobIds, hsound.settled,
    hsound.names⟩
  · show (w.sys.removeEvent e).blockers e' = w.sys.blockers e'
    rw [Sys.blockers, event?_removeEvent]
    split
    · rename_i heq
      rw [heq, hzero]
      rfl
    · rfl
  · show ((w.sys.removeEvent e).event? e').isSome = true
    have hne : e' ≠ e := by
      rintro rfl
      have hcount := hsound.ties.entries ev (mem_of_event? hev).1 id
      have hb : blockerOf w.jobs id = some e' := hb
      rw [hblocking, (mem_of_event? hev).2, if_pos hb] at hcount
      simp at hcount
    rw [event?_removeEvent, if_neg hne]
    exact hsound.ties.queued id e' hb
  · have hid := Option.some.inj (hsound.progress ev' (hsub.subset hev') hfin)
    have hne : ev'.id ≠ e := by simpa [Sys.removeEvent] using (List.mem_filter.mp hev').2
    exact absurd hid.symm hne

theorem Extends.eventNew (sys : Sys) (name : String) (env : List String)
    (valid : environAllValid env = true) (fd : Int) (blocking : List Blocked) :
    Extends sys (Startup.eventNew sys name env valid fd blocking).1 [{
      id := sys.lastEvent + 1, name, env, fd, progress := .pending, failed := false,
      blockers := 0, blocking, valid }] := by
  refine ⟨?_, rfl, rfl, by simp, le_refl _, [], rfl⟩
  simp only [Startup.eventNew, List.map_append]
  rfl

/-- A new event, which no job waits for. -/
theorem SoundWith.eventNew (h : SoundWith k w) (name : String) (env : List String)
    (valid : environAllValid env = true) (fd : Int) (blocking : List Blocked)
    (hblocking : ∀ b ∈ blocking, ∃ m, b = .emitMethod m) :
    SoundWith k (w.setSys (Startup.eventNew w.sys name env valid fd blocking).1) := by
  have hext := Extends.eventNew w.sys name env valid fd blocking
  refine h.extend hext (fun e' => ?_) (by simpa using hblocking)
  · simp only [Sys.blockers, Sys.event?, Startup.eventNew, List.find?_append,
      List.find?_singleton]
    cases hf : w.sys.events.find? fun ev => decide (ev.id = e') with
    | some ev' => rfl
    | none =>
      simp only [Option.none_or, Option.map_none, Option.getD_none]
      split <;> rfl

/-- The event that follows a failed one. -/
theorem SoundWith.failedEvent (h : SoundWith k w) (event : Event) :
    SoundWith k (w.setSys (Startup.failedEvent w.sys event)) ∧
      ∃ new, Extends w.sys (Startup.failedEvent w.sys event) new := by
  unfold Startup.failedEvent
  split
  · exact ⟨h.eventNew _ _ _ _ [] (by simp), _, .eventNew _ _ _ _ _ _⟩
  · exact ⟨h, [], .refl _⟩

/-- An event is finished: its entries are gone through, and it leaves the queue. -/
theorem eventFinished_sat {leak : EventId → Nat} {ev : Event}
    (h : SoundWith ⟨leak, some e, 0⟩ w) (hev : w.sys.event? e = some ev)
    (hzero : w.sys.blockers e = 0) :
    Sat (eventFinished x w e)
      (fun w' => WorldSound leak w' ∧ w'.sys.event? e = none ∧
        GoneOn x (fun id => .job id ∈ ev.blocking) w w')
      (fun f => f.ofQueue = false) := by
  unfold eventFinished
  rw [hev]
  refine sat_assert (fun _ => rfl) fun _ => ?_
  rw [sat_bind]
  refine (foldlM_finishEntry_sat ⟨h, ⟨ev, hev, rfl⟩, hzero⟩).imp ?_
  rintro w₁ ⟨h₁, -, hgone⟩
  obtain ⟨ev₁, hev₁, hnil⟩ := h₁.event
  rw [hev₁]
  obtain ⟨hfailed, new, hext⟩ := h₁.sound.failedEvent ev₁
  have hblockers := hfailed.accounts.balance e
  have hblockers₁ := h₁.sound.accounts.balance e
  obtain ⟨ev₂, hev₂, hbare⟩ := hext.event? hfailed.ties.unique hev₁
  have hblocking₂ : ev₂.bare.blocking = ev₁.bare.blocking := by rw [hbare]
  have hending : Ending leak e [] (w₁.setSys (failedEvent w₁.sys ev₁)) := by
    refine ⟨hfailed, ⟨ev₂, hev₂, hblocking₂.trans hnil⟩, ?_⟩
    exact (hblockers.trans hblockers₁.symm).trans h₁.unblocked
  refine ⟨hending.removeEvent, ?_, hgone.setSys rfl hext.suffix⟩
  show ((failedEvent w₁.sys ev₁).removeEvent e).event? e = none
  rw [event?_removeEvent, if_pos rfl]

/-! ## `event_poll` -/

/-- The progress of an event changes. -/
theorem SoundWith.setProgress {leak : EventId → Nat} {ending : Option EventId}
    (h : WorldSound leak w) (progress : EventProgress)
    (hend : progress = .finished → ending = some e) :
    SoundWith ⟨leak, ending, 0⟩
      (w.setSys (w.sys.modifyEvent e fun ev => { ev with progress := progress })) := by
  have hmem : ∀ ev' ∈ (w.sys.modifyEvent e fun ev => { ev with progress := progress }).events,
      ∃ old ∈ w.sys.events,
        ev' = if old.id = e then { old with progress := progress } else old := by
    intro ev' hev'
    obtain ⟨old, hold, rfl⟩ := List.mem_map.mp hev'
    exact ⟨old, hold, rfl⟩
  have hid : ∀ old : Event,
      (if old.id = e then { old with progress := progress } else old).id = old.id := by
    intro old
    split <;> rfl
  have hblocking : ∀ old : Event,
      (if old.id = e then { old with progress := progress } else old).blocking = old.blocking := by
    intro old
    split <;> rfl
  refine ⟨h.accounts.of_blockers fun e' => ?_, ⟨?_, fun ev' hev' => ?_, fun ev' hev' id => ?_,
    fun id e' hb => ?_, fun e' id hne => absurd rfl hne, fun ev' hev' b hb => ?_⟩, h.housing,
    fun ev' hev' hfin => ?_, h.classIds, h.jobIds, h.settled, h.names⟩
  · show (w.sys.modifyEvent e _).blockers e' = w.sys.blockers e'
    rw [blockers_modifyEvent (f := fun ev => { ev with progress := progress }) fun _ => rfl]
    split
    · rename_i heq
      rw [heq]
      rfl
    · rfl
  · have hmap : (w.sys.modifyEvent e fun ev => { ev with progress := progress }).events.map
        Event.id = w.sys.events.map Event.id := by
      rw [Sys.modifyEvent, List.map_map]
      exact List.map_congr_left fun old _ => hid old
    exact hmap ▸ h.ties.unique
  · obtain ⟨old, hold, rfl⟩ := hmem ev' hev'
    rw [hid]
    exact h.ties.given old hold
  · obtain ⟨old, hold, rfl⟩ := hmem ev' hev'
    rw [hid, hblocking]
    exact h.ties.entries old hold id
  · show ((w.sys.modifyEvent e _).event? e').isSome = true
    rw [event?_modifyEvent (f := fun ev => { ev with progress := progress }) fun _ => rfl]
    simpa using h.ties.queued id e' hb
  · obtain ⟨old, hold, rfl⟩ := hmem ev' hev'
    rw [hblocking] at hb
    exact h.ties.plain old hold b hb
  · obtain ⟨old, hold, rfl⟩ := hmem ev' hev'
    rw [hid]
    split at hfin
    · rename_i heq
      rw [heq]
      exact hend hfin
    · exact absurd (h.progress old hold hfin) (by simp)

/-- What `event_poll` has done for an event that is not pending: it still waits in the queue,
or the jobs of its entries have gone on. -/
def Polled (x : Host) (e : EventId) (ev : Event) (w w' : World) : Prop :=
  ((w'.sys.event? e).isSome = true ∧ w' = w) ∨
    (w'.sys.event? e = none ∧ GoneOn x (fun id => .job id ∈ ev.blocking) w w')

/-- The state in which `event_poll` comes to an event that is not pending any more. -/
def Handles (x : Host) (o : HashOrder) (ev : Event) (w w₀ : World) : Prop :=
  (ev.progress = .pending ∧ eventPending x o w ev = .ok w₀) ∨ (ev.progress ≠ .pending ∧ w₀ = w)

/-- An event is being handled: it is in the queue, as it was. -/
theorem SoundWith.handle {leak : EventId → Nat} {ev : Event} (h : WorldSound leak w)
    (hev : w.sys.event? e = some ev) :
    WorldSound leak
        (w.setSys (w.sys.modifyEvent ev.id fun ev => { ev with progress := .handling })) ∧
      (w.sys.modifyEvent ev.id fun ev => { ev with progress := .handling }).event? e =
        some { ev with progress := .handling } ∧
      ((w.sys.modifyEvent ev.id fun ev => { ev with progress := .handling }).event?
        ev.id).isSome = true := by
  have hfound : (w.sys.modifyEvent ev.id fun ev => { ev with progress := .handling }).event? e =
      some { ev with progress := .handling } := by
    rw [event?_modifyEvent (f := fun ev => { ev with progress := .handling }) fun _ => rfl, hev]
    simp
  refine ⟨h.setProgress .handling (by simp), hfound, ?_⟩
  rw [(mem_of_event? hev).2] at hfound ⊢
  rw [hfound]
  rfl

/-- An event that nobody blocks is finished. -/
theorem SoundWith.finish {leak : EventId → Nat} {ev : Event} (h : WorldSound leak w)
    (hev : w.sys.event? e = some ev) (hzero : ev.blockers = 0) :
    SoundWith ⟨leak, some e, 0⟩
        (w.setSys (w.sys.modifyEvent e fun ev => { ev with progress := .finished })) ∧
      (w.sys.modifyEvent e fun ev => { ev with progress := .finished }).event? e =
        some { ev with progress := .finished } ∧
      (w.sys.modifyEvent e fun ev => { ev with progress := .finished }).blockers e = 0 := by
  have hfound : (w.sys.modifyEvent e fun ev => { ev with progress := .finished }).event? e =
      some { ev with progress := .finished } := by
    rw [event?_modifyEvent (f := fun ev => { ev with progress := .finished }) fun _ => rfl, hev]
    simp [(mem_of_event? hev).2]
  refine ⟨h.setProgress .finished fun _ => rfl, hfound, ?_⟩
  rw [Sys.blockers, hfound]
  exact hzero

/-- Between two steps, an event that is not pending is being handled. -/
theorem SoundWith.handling {leak : EventId → Nat} {ev : Event} (h : WorldSound leak w)
    (hev : w.sys.event? e = some ev) (hne : ev.progress ≠ .pending) :
    ev.progress = .handling := by
  cases hp : ev.progress with
  | pending => exact absurd hp hne
  | handling => rfl
  | finished => exact absurd (h.progress ev (mem_of_event? hev).1 hp) (by simp)

theorem pollHandled_sat {leak : EventId → Nat} {ev : Event} (h : WorldSound leak w)
    (hev : w.sys.event? e = some ev) (hprogress : ev.progress = .handling) :
    Sat (pollHandled x w e) (fun w' => WorldSound leak w' ∧ Polled x e ev w w')
      (fun f => f.ofQueue = false) := by
  unfold pollHandled
  rw [hev]
  dsimp only
  split
  · exact ⟨h, .inl ⟨by simp [hev], rfl⟩⟩
  · rename_i hstay
    have hzero : ev.blockers = 0 := by
      by_contra hne
      exact hstay ⟨hprogress, hne⟩
    obtain ⟨hfin, hfound, hblockers⟩ := h.finish hev hzero
    refine (eventFinished_sat hfin hfound hblockers).imp ?_
    rintro w' ⟨h', hnone, hgone⟩
    have hback : GoneOn x (fun id => .job id ∈ ev.blocking) (w.setSys w.sys) (w'.setSys w'.sys) :=
      hgone.setSys rfl (List.suffix_refl _)
    exact ⟨h', .inr ⟨hnone, hback⟩⟩

theorem eventPollEvent_sat {leak : EventId → Nat} {o : HashOrder} (h : WorldSound leak w) :
    Sat (eventPollEvent x o w e)
      (fun w' => WorldSound leak w' ∧ ∀ ev, w.sys.event? e = some ev →
        ∃ w₀ ev₀, Handles x o ev w w₀ ∧ WorldSound leak w₀ ∧ w₀.sys.event? e = some ev₀ ∧
          ev₀.blocking = ev.blocking ∧ Polled x e ev₀ w₀ w')
      (fun f => f.ofQueue = false) := by
  unfold eventPollEvent
  cases hev : w.sys.event? e with
  | none => exact ⟨h, fun ev hev' => by cases hev'⟩
  | some ev =>
    dsimp only
    split
    · rename_i hpending
      have hreturns : Sat (eventPending x o w ev) (fun w₁ => eventPending x o w ev = .ok w₁)
          (fun _ => True) := sat_iff.mpr ⟨fun _ hw₁ => hw₁, fun _ _ => trivial⟩
      obtain ⟨hhandling, hfound, hqueued⟩ := h.handle hev
      have hholds : Sat (eventPending x o w ev) (fun w₁ => Goes _ _ w₁ ∧ SameTable _ w₁)
          (fun f => f.ofQueue = false) := eventPendingHandleJobs_holds hhandling hqueued
      rw [sat_bind]
      refine (hholds.and hreturns).mono ?_ fun _ hf => hf.1
      rintro w₁ ⟨⟨h₁, -⟩, hw₁⟩
      obtain ⟨new, hext, -⟩ := h₁.queue
      obtain ⟨ev₁, hev₁, hbare⟩ := hext.event? h₁.sound.ties.unique hfound
      have hprogress : ev₁.bare.progress = .handling := by rw [hbare]; rfl
      have hblocking : ev₁.bare.blocking = ev.blocking := by rw [hbare]; rfl
      refine (pollHandled_sat h₁.sound hev₁ hprogress).imp ?_
      rintro w₂ ⟨h₂, hpolled⟩
      refine ⟨h₂, ?_⟩
      rintro _ ⟨⟩
      exact ⟨w₁, ev₁, .inl ⟨hpending, hw₁⟩, h₁.sound, hev₁, hblocking, hpolled⟩
    · rename_i hne
      refine (pollHandled_sat h hev (h.handling hev hne)).imp ?_
      rintro w₂ ⟨h₂, hpolled⟩
      refine ⟨h₂, ?_⟩
      rintro _ ⟨⟩
      exact ⟨w, ev, .inr ⟨hne, rfl⟩, h, hev, rfl, hpolled⟩

end Startup
