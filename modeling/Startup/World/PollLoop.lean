import Startup.World.Runs

/-!
# The loop of `event_poll`

`event_poll` walks the list of events with a cursor, while those that it handles and
finishes add events at the end of the list and leave it, and starts again from the
head of the list until a walk finds nothing to do.

* `pollVisit`: what is done for the event at the cursor, with a record of the calls
  of `event_pending` and `event_finished`; `eventPoll` is the loop.
* `Visited`: what one visit does to the list.
* `Walked`: the account of a walk so far: which events have been emitted, handled
  and finished.
* `eventPoll_quiesces`: what `event_poll` has done when it returns.
-/

namespace Startup

open Lib

variable {x : Host} {o : HashOrder} {w w' : World} {e : EventId}

/-! ## The loop -/

/-- A call that `event_poll` makes, with the event as it then is: at its end, for one
that is finished. -/
inductive PollCall where
  | pending (event : Event)
  | finished (event : Event)

/-- The event as `event_finished` frees it. -/
def freedEvent (x : Host) (w : World) (e : EventId) : Except Fault (List PollCall) :=
  match w.sys.event? e with
  | none => .ok []
  | some event => do
    let w ← event.blocking.foldlM (finishEntry x e) w
    .ok ((w.sys.event? e).toList.map .finished)

/-- `pollHandled`, and the call of `event_finished` that it makes. -/
def pollHandledVisit (x : Host) (w : World) (e : EventId) :
    Except Fault (World × List PollCall) := do
  let w' ← pollHandled x w e
  match w.sys.event? e with
  | none => .ok (w', [])
  | some event =>
    if event.progress = .handling ∧ event.blockers ≠ 0 then .ok (w', [])
    else do
      let sys := w.sys.modifyEvent e fun ev => { ev with progress := .finished }
      let calls ← freedEvent x (w.setSys sys) e
      .ok (w', calls)

/-- `eventPollEvent`, and the calls that it makes. -/
def pollVisit (x : Host) (o : HashOrder) (w : World) (e : EventId) :
    Except Fault (World × List PollCall) :=
  match w.sys.event? e with
  | none => .ok (w, [])
  | some event =>
    if event.progress = .pending then do
      let w ← eventPending x o w event
      let (w, calls) ← pollHandledVisit x w e
      .ok (w, .pending event :: calls)
    else pollHandledVisit x w e

/-- The first event that is not before the cursor; `front` are those that are. -/
def eventAfter (w : World) (front : List EventId) : Option EventId :=
  (w.sys.events.find? fun ev => ev.id ∉ front).map Event.id

/-- The event to which the loop comes next, with the events before the cursor and
`poll_again` as they then are: at the end of the list, the loop starts again or ends. -/
def nextVisit (w : World) (front : List EventId) (again : Bool) :
    Option (EventId × List EventId × Bool) :=
  match eventAfter w front with
  | some e => some (e, front, again)
  | none => if again then (eventAfter w []).map fun e => (e, [], false) else none

/-- The loop of `event_poll` from the cursor on.  Each visit reads what the kernel
says at that time; there is no end without as many of these as visits. -/
def eventPollFrom : List (Host × HashOrder) → World → List EventId → Bool →
    Except Fault (World × List PollCall)
  | [], w, front, again =>
    match nextVisit w front again with
    | none => .ok (w, [])
    | some _ => .error .outOfFuel
  | (x, o) :: hosts, w, front, again =>
    match nextVisit w front again with
    | none => .ok (w, [])
    | some (e, front, again) => do
      let (w, calls) ← pollVisit x o w e
      let (w, later) ← eventPollFrom hosts w (e :: front) (again || !calls.isEmpty)
      .ok (w, calls ++ later)

/-- `event_poll`. -/
def eventPoll (hosts : List (Host × HashOrder)) (w : World) :
    Except Fault (World × List PollCall) :=
  eventPollFrom hosts w [] false

/-- Without the record, a visit is what `event_poll` does for an event. -/
theorem pollVisit_fst {calls : List PollCall} (h : pollVisit x o w e = .ok (w', calls)) :
    eventPollEvent x o w e = .ok w' := by
  have hhandled : ∀ {w w' : World} {calls : List PollCall},
      pollHandledVisit x w e = .ok (w', calls) → pollHandled x w e = .ok w' := by
    intro w w' calls h
    unfold pollHandledVisit at h
    obtain ⟨w₁, hw₁, h⟩ := bind_eq_ok.mp h
    rw [hw₁]
    split at h
    · cases h
      rfl
    · split at h
      · cases h
        rfl
      · obtain ⟨_, -, h⟩ := bind_eq_ok.mp h
        cases h
        rfl
  unfold pollVisit at h
  unfold eventPollEvent
  cases hev : w.sys.event? e with
  | none =>
    rw [hev] at h
    cases h
    rfl
  | some event =>
    simp only [hev] at h
    dsimp only
    split at h
    · rename_i hp
      obtain ⟨w₁, hw₁, h⟩ := bind_eq_ok.mp h
      obtain ⟨⟨w₂, calls'⟩, hw₂, h⟩ := bind_eq_ok.mp h
      cases h
      rw [if_pos hp, bind_eq_ok]
      exact ⟨w₁, hw₁, hhandled hw₂⟩
    · rename_i hp
      rw [if_neg hp]
      exact hhandled h

/-! ## One visit -/

/-- The event has the name of one that follows a failed one. -/
def Event.followsFailure (ev : Event) : Bool :=
  "/failed".toList.isSuffixOf ev.name.toList

/-- The event ends with a failure after which another event is emitted. -/
def Event.failsOn (ev : Event) : Bool :=
  ev.failed && !ev.followsFailure

/-- The name and the environment of an event. -/
def Event.text (ev : Event) : String × List String := (ev.name, ev.env)

/-- What the event that follows a failed one says. -/
def Event.failureText (ev : Event) : String × List String := (ev.name ++ "/failed", ev.env)

/-- The events of jobs do not follow a failed one. -/
theorem Event.ofJob.not_followsFailure {ev : Event} (h : ev.ofJob) :
    ev.followsFailure = false := by
  unfold Event.followsFailure
  rcases h with h | h | h | h <;> rw [h] <;> decide

theorem followsFailure_append (name : String) :
    "/failed".toList.isSuffixOf (name ++ "/failed").toList = true := by
  rw [List.isSuffixOf_iff_suffix, String.toList_append]
  exact List.suffix_append _ _

theorem map_face_removeEvent (sys : Sys) (e : EventId) :
    (sys.removeEvent e).events.map Event.face =
      (sys.events.map Event.face).filter fun f => f.1 ≠ e := by
  rw [Sys.removeEvent, List.filter_map]
  rfl

/-- What `failedEvent` adds. -/
theorem failedEvent_grows (sys : Sys) (ev : Event) :
    ∃ new, Grows sys (failedEvent sys ev) new ∧
      (new.filter Event.followsFailure).map Event.text =
        if ev.failsOn then [ev.failureText] else [] := by
  unfold failedEvent
  split
  · rename_i hf
    rw [if_pos (show ev.failsOn = true from hf)]
    refine ⟨_, (Extends.eventNew _ _ _ _ _ _).grows, ?_⟩
    have hname : Event.followsFailure {
        id := sys.lastEvent + 1, name := ev.name ++ "/failed", env := ev.env, fd := -1,
        progress := .pending, failed := false, blockers := 0, blocking := [],
        valid := ev.valid } = true := followsFailure_append ev.name
    rw [List.filter_cons_of_pos hname]
    rfl
  · rename_i hf
    rw [if_neg (show ¬ev.failsOn = true from hf)]
    exact ⟨[], .refl sys, rfl⟩

/-- The calls of `event_pending`. -/
def pendings (calls : List PollCall) : List Event :=
  calls.filterMap fun
    | .pending event => some event
    | .finished _ => none

/-- The calls of `event_finished`. -/
def finishes (calls : List PollCall) : List Event :=
  calls.filterMap fun
    | .pending _ => none
    | .finished event => some event

/-- The events that wait to be handled. -/
def pendingFaces (sys : Sys) : List (EventId × String × List String × EventProgress) :=
  (sys.events.map Event.face).filter fun f => f.2.2.2 = .pending

/-- The account of a walk: `new` are the events that have been emitted. -/
structure Walked (sys sys' : Sys) (calls : List PollCall) (new : List Event) : Prop where
  ids : new.map Event.id = List.range' (sys.lastEvent + 1) new.length
  lastEvent : sys'.lastEvent = sys.lastEvent + new.length
  taken : (pendings calls).map Event.face ++ pendingFaces sys' =
    pendingFaces sys ++ new.map Event.face
  kept : List.Perm ((finishes calls).map Event.id ++ sys'.events.map Event.id)
    (sys.events.map Event.id ++ new.map Event.id)
  follow : (new.filter Event.followsFailure).map Event.text =
    ((finishes calls).filter Event.failsOn).map Event.failureText

namespace Walked

variable {sys sys' sys'' : Sys} {calls calls' : List PollCall} {new new' : List Event}

theorem refl (sys : Sys) : Walked sys sys [] [] :=
  ⟨rfl, rfl, by simp [pendings], by simp [finishes], rfl⟩

theorem trans (h : Walked sys sys' calls new) (h' : Walked sys' sys'' calls' new') :
    Walked sys sys'' (calls ++ calls') (new ++ new') := by
  have hfinishes : finishes (calls ++ calls') = finishes calls ++ finishes calls' :=
    List.filterMap_append
  have hpendings : pendings (calls ++ calls') = pendings calls ++ pendings calls' :=
    List.filterMap_append
  refine ⟨?_, ?_, ?_, ?_, ?_⟩
  · rw [List.map_append, h.ids, h'.ids, h.lastEvent, List.length_append, ← List.range'_append_1,
      Nat.add_right_comm]
  · rw [h'.lastEvent, h.lastEvent, List.length_append, Nat.add_assoc]
  · rw [hpendings, List.map_append, List.append_assoc, h'.taken, ← List.append_assoc, h.taken,
      List.map_append, List.append_assoc]
  · rw [hfinishes, List.map_append, List.map_append]
    calc (finishes calls).map Event.id ++ (finishes calls').map Event.id ++
          sys''.events.map Event.id
        = (finishes calls).map Event.id ++ ((finishes calls').map Event.id ++
          sys''.events.map Event.id) := List.append_assoc ..
      List.Perm _ ((finishes calls).map Event.id ++ (sys'.events.map Event.id ++
          new'.map Event.id)) := h'.kept.append_left _
      _ = ((finishes calls).map Event.id ++ sys'.events.map Event.id) ++ new'.map Event.id :=
        (List.append_assoc ..).symm
      List.Perm _ ((sys.events.map Event.id ++ new.map Event.id) ++ new'.map Event.id) :=
        h.kept.append_right _
      _ = sys.events.map Event.id ++ (new.map Event.id ++ new'.map Event.id) :=
        List.append_assoc ..
  · rw [hfinishes, List.filter_append, List.filter_append, List.map_append, List.map_append,
      h.follow, h'.follow]

end Walked

theorem pendingFaces_grows {sys sys' : Sys} {new : List Event} (h : Grows sys sys' new) :
    pendingFaces sys' = pendingFaces sys ++ new.map Event.face := by
  have hnew : (new.map Event.face).filter (fun f => f.2.2.2 = .pending) = new.map Event.face := by
    refine List.filter_eq_self.mpr fun f hf => ?_
    obtain ⟨ev, hev, rfl⟩ := List.mem_map.mp hf
    exact decide_eq_true (h.pending ev hev)
  rw [pendingFaces, h.faces, List.filter_append, hnew]
  rfl

theorem pendingFaces_eq_filter (sys : Sys) :
    pendingFaces sys = (sys.events.filter fun ev => ev.progress = .pending).map Event.face := by
  rw [pendingFaces, List.filter_map]
  rfl

theorem map_id_of_faces {evs : List Event} : evs.map Event.id = (evs.map Event.face).map (·.1) := by
  rw [List.map_map]
  rfl

theorem ids_grows {sys sys' : Sys} {new : List Event} (h : Grows sys sys' new) :
    sys'.events.map Event.id = sys.events.map Event.id ++ new.map Event.id := by
  rw [map_id_of_faces, h.faces, List.map_append, ← map_id_of_faces, ← map_id_of_faces]

/-- The progress of one event of the queue changes. -/
theorem modifyEvent_middle {sys : Sys} {before after : List Event} {ev : Event}
    (hunique : (sys.events.map Event.id).Nodup) (hevents : sys.events = before ++ ev :: after)
    (progress : EventProgress) :
    (sys.modifyEvent ev.id fun ev => { ev with progress := progress }).events =
      before ++ { ev with progress := progress } :: after := by
  have hother : ∀ evs : List Event, (∀ ev' ∈ evs, ev'.id ≠ ev.id) →
      evs.map (fun ev' => if ev'.id = ev.id then { ev' with progress := progress } else ev') =
        evs := by
    intro evs hevs
    calc _ = evs.map id := List.map_congr_left fun ev' hev' => if_neg (hevs ev' hev')
      _ = evs := List.map_id evs
  rw [hevents, List.map_append, List.map_cons, List.nodup_append] at hunique
  obtain ⟨-, hafter, hbefore⟩ := hunique
  rw [Sys.modifyEvent]
  show List.map _ sys.events = _
  rw [hevents, List.map_append, List.map_cons, hother before, hother after, if_pos rfl]
  · intro ev' hev' hid
    exact (List.nodup_cons.mp hafter).1 (hid ▸ List.mem_map_of_mem hev')
  · intro ev' hev' hid
    exact hbefore _ (List.mem_map_of_mem hev') _ (List.mem_cons_self ..) hid

/-- The first pending event of the queue is handed on. -/
theorem eventPending_walked {leak : EventId → Nat} {ev : Event} {before after : List Event}
    (h : WorldSound leak w) (hevents : w.sys.events = before ++ ev :: after)
    (hbefore : ∀ ev' ∈ before, ev'.progress ≠ .pending) (hpending : ev.progress = .pending)
    (hw : eventPending x o w ev = .ok w') :
    WorldSound leak w' ∧ (∃ ev', w'.sys.event? ev.id = some ev' ∧ ev'.progress = .handling) ∧
      ∃ new, Walked w.sys w'.sys [.pending ev] new := by
  have hmem : ev ∈ w.sys.events := hevents ▸ List.mem_append_right _ (List.mem_cons_self ..)
  obtain ⟨hhandling, hfound, hqueued⟩ := h.handle (event?_of_mem h.ties.unique hmem)
  have hgoes := (eventPendingHandleJobs_holds hhandling hqueued).of_ok hw
  obtain ⟨hgoes, -⟩ := hgoes
  obtain ⟨new, hext, hnamed⟩ := hgoes.queue
  obtain ⟨ev', hev', hbare⟩ := hext.event? hgoes.sound.ties.unique hfound
  have hprogress : ev'.bare.progress = .handling := by rw [hbare]; rfl
  have hmiddle := modifyEvent_middle h.ties.unique hevents .handling
  have hgrows := hext.grows
  refine ⟨hgoes.sound, ⟨ev', hev', hprogress⟩, new, hgrows.ids, hgrows.lastEvent, ?_, ?_, ?_⟩
  · have hnone : before.filter (fun ev => decide (ev.progress = .pending)) = [] :=
      List.filter_eq_nil_iff.mpr fun ev' hev' => by simp [hbefore ev' hev']
    have hfirst : pendingFaces w.sys = ev.face :: pendingFaces (w.sys.modifyEvent ev.id
        fun ev => { ev with progress := .handling }) := by
      rw [pendingFaces_eq_filter, pendingFaces_eq_filter, hmiddle, hevents]
      simp [hnone, hpending]
    rw [pendingFaces_grows hgrows, hfirst]
    rfl
  · have hids : w'.sys.events.map Event.id = w.sys.events.map Event.id ++ new.map Event.id := by
      rw [ids_grows hgrows]
      show List.map Event.id (w.sys.modifyEvent ev.id _).events ++ _ = _
      rw [hmiddle, hevents]
      simp
    rw [hids]
    exact List.Perm.refl _
  · rw [List.filter_eq_nil_iff.mpr fun ev hev => by simp [(hnamed ev hev).not_followsFailure]]
    rfl

/-- `event_finished`: the queue grows, then the event leaves it. -/
theorem eventFinished_grows {leak : EventId → Nat} {ev : Event}
    (h : SoundWith ⟨leak, some e, 0⟩ w) (hev : w.sys.event? e = some ev)
    (hzero : w.sys.blockers e = 0) (hw : eventFinished x w e = .ok w') :
    ∃ fin sys new, freedEvent x w e = .ok [.finished fin] ∧ fin.id = e ∧
      w'.sys = sys.removeEvent e ∧ Grows w.sys sys new ∧ (sys.events.map Event.id).Nodup ∧
      (new.filter Event.followsFailure).map Event.text =
        if fin.failsOn then [fin.failureText] else [] := by
  unfold eventFinished at hw
  simp only [hev] at hw
  obtain ⟨-, hw⟩ := check_bind_eq_ok.mp hw
  obtain ⟨w₁, hfold, hw⟩ := bind_eq_ok.mp hw
  obtain ⟨hending, ⟨new, hgrows, hnamed⟩, -⟩ :=
    (foldlM_finishEntry_sat ⟨h, ⟨ev, hev, rfl⟩, hzero⟩).of_ok hfold
  obtain ⟨fin, hfreed, -⟩ := hending.event
  rw [hfreed] at hw
  cases hw
  obtain ⟨follow, hfollow, htext⟩ := failedEvent_grows w₁.sys fin
  refine ⟨fin, failedEvent w₁.sys fin, new ++ follow, ?_, (mem_of_event? hfreed).2, rfl,
    hgrows.trans hfollow, (hending.sound.failedEvent fin).1.ties.unique, ?_⟩
  · unfold freedEvent
    simp only [hev, bind_eq_ok]
    exact ⟨w₁, hfold, by rw [hfreed]; rfl⟩
  · have hnone : new.filter Event.followsFailure = [] :=
      List.filter_eq_nil_iff.mpr fun ev hev => by simp [(hnamed ev hev).not_followsFailure]
    rw [List.filter_append, List.map_append, hnone, htext]
    rfl

theorem ids_removeEvent (sys : Sys) (e : EventId) :
    (sys.removeEvent e).events.map Event.id = (sys.events.map Event.id).filter (· != e) := by
  rw [Sys.removeEvent, List.filter_map]
  congr 1
  exact List.filter_congr fun ev _ => by simp [bne, beq_eq_decide]

/-- An event that nobody blocks is finished. -/
theorem eventFinished_walked {leak : EventId → Nat} {ev : Event} (h : WorldSound leak w)
    (hev : w.sys.event? e = some ev) (hhandling : ev.progress = .handling)
    (hzero : ev.blockers = 0)
    (hw : eventFinished x
      (w.setSys (w.sys.modifyEvent e fun ev => { ev with progress := .finished })) e = .ok w') :
    ∃ fin new,
      freedEvent x (w.setSys (w.sys.modifyEvent e fun ev => { ev with progress := .finished })) e =
        .ok [.finished fin] ∧
      w'.sys.event? e = none ∧ Walked w.sys w'.sys [.finished fin] new := by
  obtain ⟨hmem, hid⟩ := mem_of_event? hev
  obtain ⟨hfin, hfound, hblockers⟩ := h.finish hev hzero
  obtain ⟨fin, sys, new, hfreed, hfinId, hw', hgrows, hunique, htext⟩ :=
    eventFinished_grows hfin hfound hblockers hw
  obtain ⟨before, after, hevents⟩ := List.append_of_mem hmem
  have hmiddle := modifyEvent_middle h.ties.unique hevents .finished
  rw [hid] at hmiddle
  -- the events that are pending are those of before, and the new ones
  have hpending : pendingFaces sys = pendingFaces w.sys ++ new.map Event.face := by
    rw [pendingFaces_grows hgrows, pendingFaces_eq_filter, pendingFaces_eq_filter]
    show List.map _ (List.filter _ (w.sys.modifyEvent e _).events) ++ _ = _
    rw [hmiddle, hevents]
    simp [hhandling]
  have hids : sys.events.map Event.id = w.sys.events.map Event.id ++ new.map Event.id := by
    rw [ids_grows hgrows]
    show List.map Event.id (w.sys.modifyEvent e _).events ++ _ = _
    rw [hmiddle, hevents]
    simp [hid]
  refine ⟨fin, new, hfreed, ?_, hgrows.ids, hw' ▸ hgrows.lastEvent, ?_, ?_, ?_⟩
  · rw [hw', event?_removeEvent, if_pos rfl]
  · rw [hw', ← hpending]
    show pendingFaces (sys.removeEvent e) = pendingFaces sys
    rw [pendingFaces, map_face_removeEvent, List.filter_comm]
    refine List.filter_eq_self.mpr fun f hf => ?_
    have hf : f ∈ pendingFaces sys := hf
    rw [hpending] at hf
    refine decide_eq_true fun heq => ?_
    rcases List.mem_append.mp hf with hold | hnew
    · rw [pendingFaces_eq_filter] at hold
      obtain ⟨ev', hev', rfl⟩ := List.mem_map.mp hold
      obtain ⟨hev', hp⟩ := List.mem_filter.mp hev'
      have hsame := event?_of_mem h.ties.unique hev'
      rw [show ev'.id = e from heq, hev] at hsame
      cases hsame
      simp [hhandling] at hp
    · obtain ⟨ev', hev', rfl⟩ := List.mem_map.mp hnew
      have hrange : ev'.id ∈ new.map Event.id := List.mem_map_of_mem hev'
      rw [hgrows.ids, show ev'.id = e from heq, List.mem_range'_1] at hrange
      have hgiven := h.ties.given ev hmem
      rw [hid] at hgiven
      exact absurd hrange.1 (Nat.not_le.mpr (Nat.lt_succ_of_le hgiven))
  · rw [hw', ids_removeEvent, ← hids]
    show List.Perm (fin.id :: _) _
    rw [hfinId]
    have he : e ∈ sys.events.map Event.id := by
      rw [hids, ← hid]
      exact List.mem_append_left _ (List.mem_map_of_mem hmem)
    have hperm := (List.perm_cons_erase he).symm
    rw [hunique.erase_eq_filter] at hperm
    exact hperm
  · rw [htext]
    show _ = List.map _ ([fin].filter Event.failsOn)
    by_cases hf : fin.failsOn = true
    · simp [hf]
    · simp [hf]

/-- An event that is being handled stays as it is if it is blocked, and is finished
otherwise. -/
theorem pollHandledVisit_walked {leak : EventId → Nat} {ev : Event} (h : WorldSound leak w)
    (hev : w.sys.event? e = some ev) (hhandling : ev.progress = .handling)
    {calls : List PollCall} (hw : pollHandledVisit x w e = .ok (w', calls)) :
    WorldSound leak w' ∧ pendings calls = [] ∧ (∃ new, Walked w.sys w'.sys calls new) ∧
      (∀ ev', w'.sys.event? e = some ev' → ev'.progress ≠ .pending) ∧
      (calls = [] → w' = w ∧ ev.blockers ≠ 0) := by
  unfold pollHandledVisit at hw
  obtain ⟨w₁, hw₁, hw⟩ := bind_eq_ok.mp hw
  have hsound := ((pollHandled_sat h hev hhandling).of_ok hw₁).1
  simp only [pollHandled, hev] at hw hw₁
  by_cases hstay : ev.progress = .handling ∧ ev.blockers ≠ 0
  · rw [if_pos hstay] at hw hw₁
    cases hw₁
    cases hw
    refine ⟨h, rfl, ⟨[], .refl _⟩, fun ev' hev' => ?_, fun _ => ⟨rfl, hstay.2⟩⟩
    rw [hev] at hev'
    cases hev'
    simp [hhandling]
  · rw [if_neg hstay] at hw hw₁
    have hzero : ev.blockers = 0 := by
      by_contra hne
      exact hstay ⟨hhandling, hne⟩
    obtain ⟨fin, new, hfreed, hgone, hwalked⟩ := eventFinished_walked h hev hhandling hzero hw₁
    rw [hfreed] at hw
    cases hw
    exact ⟨hsound, rfl, ⟨new, hwalked⟩, by simp [hgone], by simp⟩

/-- A visit of an event before which none is pending. -/
theorem pollVisit_walked {leak : EventId → Nat} {ev : Event} {before after : List Event}
    (h : WorldSound leak w) (hevents : w.sys.events = before ++ ev :: after)
    (hbefore : ∀ ev' ∈ before, ev'.progress ≠ .pending) {calls : List PollCall}
    (hw : pollVisit x o w ev.id = .ok (w', calls)) :
    WorldSound leak w' ∧
      pendings calls = (if ev.progress = .pending then [ev] else []) ∧
      (∃ new, Walked w.sys w'.sys calls new) ∧
      (∀ ev', w'.sys.event? ev.id = some ev' → ev'.progress ≠ .pending) ∧
      (calls = [] → w' = w ∧ ev.blockers ≠ 0) := by
  have hmem : ev ∈ w.sys.events := hevents ▸ List.mem_append_right _ (List.mem_cons_self ..)
  have hev := event?_of_mem h.ties.unique hmem
  unfold pollVisit at hw
  simp only [hev] at hw
  by_cases hpending : ev.progress = .pending
  · rw [if_pos hpending] at hw
    obtain ⟨w₁, hw₁, hw⟩ := bind_eq_ok.mp hw
    obtain ⟨⟨w₂, later⟩, hw₂, hw⟩ := bind_eq_ok.mp hw
    cases hw
    obtain ⟨h₁, ⟨ev₁, hev₁, hhandling⟩, new, hwalked⟩ :=
      eventPending_walked h hevents hbefore hpending hw₁
    obtain ⟨h₂, hnone, ⟨new', hwalked'⟩, hdone, -⟩ := pollHandledVisit_walked h₁ hev₁ hhandling hw₂
    refine ⟨h₂, ?_, ⟨new ++ new', hwalked.trans hwalked'⟩, hdone, by simp⟩
    rw [if_pos hpending]
    show ev :: pendings later = [ev]
    rw [hnone]
  · rw [if_neg hpending] at hw
    rw [if_neg hpending]
    exact pollHandledVisit_walked h hev (h.handling hev hpending) hw

/-! ## The walk -/

/-- What holds whenever the loop comes to its cursor: no event before it is pending,
and if nothing has been done since the head of the list, they are all blocked. -/
structure AtCursor (leak : EventId → Nat) (w : World) (front : List EventId) (again : Bool) :
    Prop where
  sound : WorldSound leak w
  given : ∀ e ∈ front, e ≤ w.sys.lastEvent
  passed : ∀ f ∈ pendingFaces w.sys, f.1 ∉ front
  idle : again = false → ∀ ev ∈ w.sys.events, ev.id ∈ front → ev.blockers ≠ 0

/-- The event after the cursor, between those before and after it. -/
theorem eventAfter_eq_some {front : List EventId} (h : eventAfter w front = some e) :
    ∃ ev before after, ev.id = e ∧ e ∉ front ∧ w.sys.events = before ++ ev :: after ∧
      ∀ ev' ∈ before, ev'.id ∈ front := by
  obtain ⟨ev, hfind, rfl⟩ := Option.map_eq_some_iff.mp h
  obtain ⟨hfront, before, after, hevents, hbefore⟩ := List.find?_eq_some_iff_append.mp hfind
  refine ⟨ev, before, after, rfl, of_decide_eq_true hfront, hevents, fun ev' hev' => ?_⟩
  have := hbefore ev' hev'
  simpa using this

/-- One visit. -/
theorem AtCursor.visit {leak : EventId → Nat} {front : List EventId} {again : Bool}
    (h : AtCursor leak w front again) (he : eventAfter w front = some e)
    {calls : List PollCall} (hw : pollVisit x o w e = .ok (w', calls)) :
    AtCursor leak w' (e :: front) (again || !calls.isEmpty) ∧
      ∃ new, Walked w.sys w'.sys calls new := by
  obtain ⟨ev, before, after, rfl, hfront, hevents, hbefore⟩ := eventAfter_eq_some he
  have hmem : ev ∈ w.sys.events := hevents ▸ List.mem_append_right _ (List.mem_cons_self ..)
  have hpassed : ∀ ev' ∈ before, ev'.progress ≠ .pending := by
    intro ev' hev' hp
    refine h.passed ev'.face ?_ (hbefore ev' hev')
    rw [pendingFaces_eq_filter]
    refine List.mem_map_of_mem (List.mem_filter.mpr ⟨?_, decide_eq_true hp⟩)
    exact hevents ▸ List.mem_append_left _ hev'
  obtain ⟨h', -, ⟨new, hwalked⟩, hdone, hidle⟩ := pollVisit_walked h.sound hevents hpassed hw
  have hgiven := h.sound.ties.given ev hmem
  have hle : w.sys.lastEvent ≤ w'.sys.lastEvent := hwalked.lastEvent ▸ Nat.le_add_right ..
  refine ⟨⟨h', ?_, ?_, ?_⟩, new, hwalked⟩
  · intro e he
    rcases List.mem_cons.mp he with rfl | he
    · exact hgiven.trans hle
    · exact (h.given e he).trans hle
  · intro f hf hin
    have hf' := hf
    rw [pendingFaces_eq_filter] at hf'
    obtain ⟨ev', hev', rfl⟩ := List.mem_map.mp hf'
    obtain ⟨hev', hp⟩ := List.mem_filter.mp hev'
    rcases List.mem_cons.mp hin with hid | hin
    · have hid : ev'.id = ev.id := hid
      exact hdone ev' (hid ▸ event?_of_mem h'.ties.unique hev') (of_decide_eq_true hp)
    · have htaken : ev'.face ∈ (pendings calls).map Event.face ++ pendingFaces w'.sys :=
        List.mem_append_right _ hf
      rw [hwalked.taken] at htaken
      rcases List.mem_append.mp htaken with hold | hnew
      · exact h.passed _ hold hin
      · have hrange : ev'.id ∈ (new.map Event.face).map (·.1) := List.mem_map_of_mem hnew
        rw [← map_id_of_faces, hwalked.ids, List.mem_range'_1] at hrange
        exact absurd hrange.1 (Nat.not_le.mpr (Nat.lt_succ_of_le (h.given _ hin)))
  · intro hagain ev' hev' hin
    simp only [Bool.or_eq_false_iff, Bool.not_eq_false', List.isEmpty_iff] at hagain
    obtain ⟨rfl, hblocked⟩ := hidle hagain.2
    rcases List.mem_cons.mp hin with hid | hin
    · have hsame := event?_of_mem h.sound.ties.unique hev'
      rw [hid, event?_of_mem h.sound.ties.unique hmem] at hsame
      cases hsame
      exact hblocked
    · exact h.idle hagain.1 ev' hev' hin

theorem AtCursor.next {leak : EventId → Nat} {front front' : List EventId} {again again' : Bool}
    (h : AtCursor leak w front again) (hnext : nextVisit w front again = some (e, front', again')) :
    AtCursor leak w front' again' ∧ eventAfter w front' = some e := by
  unfold nextVisit at hnext
  split at hnext
  · rename_i hafter
    cases hnext
    exact ⟨h, hafter⟩
  · split at hnext
    · obtain ⟨e', hafter, heq⟩ := Option.map_eq_some_iff.mp hnext
      cases heq
      exact ⟨⟨h.sound, by simp, by simp, by simp⟩, hafter⟩
    · cases hnext

/-- The loop ends when all events that are left are being handled and blocked. -/
theorem AtCursor.quiet {leak : EventId → Nat} {front : List EventId} {again : Bool}
    (h : AtCursor leak w front again) (hnext : nextVisit w front again = none) :
    ∀ ev ∈ w.sys.events, ev.progress = .handling ∧ 0 < ev.blockers := by
  intro ev hmem
  unfold nextVisit at hnext
  split at hnext
  · cases hnext
  rename_i hafter
  split at hnext
  · -- the list is empty: a walk from its head finds nothing
    have hfirst := Option.map_eq_none_iff.mp (Option.map_eq_none_iff.mp hnext)
    have hnone := List.find?_eq_none.mp hfirst
    simpa using hnone ev hmem
  · rename_i hagain
    have hnone := List.find?_eq_none.mp (Option.map_eq_none_iff.mp hafter) ev hmem
    have hfront : ev.id ∈ front := by simpa using hnone
    have hpending : ev.progress ≠ .pending := by
      intro hp
      refine h.passed ev.face ?_ hfront
      rw [pendingFaces_eq_filter]
      exact List.mem_map_of_mem (List.mem_filter.mpr ⟨hmem, decide_eq_true hp⟩)
    have hblockers := h.idle (by simpa using hagain) ev hmem hfront
    exact ⟨h.sound.handling (event?_of_mem h.sound.ties.unique hmem) hpending,
      Nat.pos_of_ne_zero hblockers⟩

/-- The whole loop, by induction on the visits. -/
theorem eventPollFrom_walked {leak : EventId → Nat} {hosts : List (Host × HashOrder)}
    {front : List EventId} {again : Bool} (h : AtCursor leak w front again)
    {calls : List PollCall} (hw : eventPollFrom hosts w front again = .ok (w', calls)) :
    WorldSound leak w' ∧ (∃ new, Walked w.sys w'.sys calls new) ∧
      ∀ ev ∈ w'.sys.events, ev.progress = .handling ∧ 0 < ev.blockers := by
  induction hosts generalizing w front again calls with
  | nil =>
    unfold eventPollFrom at hw
    split at hw
    · rename_i hnext
      cases hw
      exact ⟨h.sound, ⟨[], .refl _⟩, h.quiet hnext⟩
    · cases hw
  | cons host hosts ih =>
    obtain ⟨x, o⟩ := host
    unfold eventPollFrom at hw
    split at hw
    · rename_i hnext
      cases hw
      exact ⟨h.sound, ⟨[], .refl _⟩, h.quiet hnext⟩
    · rename_i e front' again' hnext
      obtain ⟨h', hafter⟩ := h.next hnext
      obtain ⟨⟨w₁, calls₁⟩, hvisit, hw⟩ := bind_eq_ok.mp hw
      obtain ⟨⟨w₂, calls₂⟩, hrest, hw⟩ := bind_eq_ok.mp hw
      cases hw
      obtain ⟨h₁, new, hwalked⟩ := h'.visit hafter hvisit
      obtain ⟨h₂, ⟨new', hwalked'⟩, hquiet⟩ := ih h₁ hrest
      exact ⟨h₂, ⟨new ++ new', hwalked.trans hwalked'⟩, hquiet⟩

/-! ## The order of emission -/

/-- Events have been added at the end of the queue, and have left it. -/
def Later (sys sys' : Sys) : Prop :=
  ∃ n, sys'.lastEvent = sys.lastEvent + n ∧
    List.Sublist (sys'.events.map Event.id)
      (sys.events.map Event.id ++ List.range' (sys.lastEvent + 1) n)

namespace Later

variable {sys sys' sys'' : Sys} {new : List Event}

theorem of_ids (hids : sys'.events.map Event.id = sys.events.map Event.id)
    (hlast : sys'.lastEvent = sys.lastEvent) : Later sys sys' :=
  ⟨0, hlast, by simp [hids]⟩

theorem trans (h : Later sys sys') (h' : Later sys' sys'') : Later sys sys'' := by
  obtain ⟨n, hlast, hids⟩ := h
  obtain ⟨n', hlast', hids'⟩ := h'
  refine ⟨n + n', by rw [hlast', hlast, Nat.add_assoc], hids'.trans ?_⟩
  rw [hlast, Nat.add_right_comm, ← List.range'_append_1, ← List.append_assoc]
  exact hids.append_right _

theorem of_grows (h : Grows sys sys' new) : Later sys sys' := by
  refine ⟨new.length, h.lastEvent, ?_⟩
  rw [ids_grows h, h.ids]

theorem removeEvent (sys : Sys) (e : EventId) : Later sys (sys.removeEvent e) := by
  refine ⟨0, rfl, ?_⟩
  rw [ids_removeEvent, List.range'_zero, List.append_nil]
  exact List.filter_sublist

/-- The queue stays in the order in which the events have been emitted. -/
theorem sorted (h : Later sys sys') (hgiven : ∀ ev ∈ sys.events, ev.id ≤ sys.lastEvent)
    (hsorted : (sys.events.map Event.id).Pairwise (· < ·)) :
    (sys'.events.map Event.id).Pairwise (· < ·) := by
  obtain ⟨n, -, hids⟩ := h
  refine List.Pairwise.sublist hids (List.pairwise_append.mpr ⟨hsorted, ?_, ?_⟩)
  · exact List.pairwise_lt_range'
  · intro e he e' he'
    obtain ⟨ev, hev, rfl⟩ := List.mem_map.mp he
    exact Nat.lt_of_le_of_lt (hgiven ev hev) (List.mem_range'_1.mp he').1

end Later

theorem ids_setProgress (sys : Sys) (e : EventId) (progress : EventProgress) :
    (sys.modifyEvent e fun ev => { ev with progress := progress }).events.map Event.id =
      sys.events.map Event.id := by
  rw [Sys.modifyEvent, List.map_map]
  exact List.map_congr_left fun ev _ => by
    dsimp only [Function.comp_apply]
    split <;> rfl

theorem eventPollEvent_later {leak : EventId → Nat} (h : WorldSound leak w)
    (hw : eventPollEvent x o w e = .ok w') : Later w.sys w'.sys := by
  -- the event is handled, if it is not blocked
  have hhandled : ∀ {w w' : World} {ev : Event}, WorldSound leak w →
      w.sys.event? e = some ev → ev.progress = .handling → pollHandled x w e = .ok w' →
      Later w.sys w'.sys := by
    intro w w' ev h hev hhandling hw
    simp only [pollHandled, hev] at hw
    split at hw
    · cases hw
      exact .of_ids rfl rfl
    · rename_i hstay
      have hzero : ev.blockers = 0 := by
        by_contra hne
        exact hstay ⟨hhandling, hne⟩
      obtain ⟨hfin, hfound, hblockers⟩ := h.finish hev hzero
      obtain ⟨-, sys, new, -, -, hsys, hgrows, -⟩ := eventFinished_grows hfin hfound hblockers hw
      rw [hsys]
      exact (Later.of_ids (ids_setProgress _ _ _) rfl).trans
        ((Later.of_grows hgrows).trans (.removeEvent _ _))
  unfold eventPollEvent at hw
  cases hev : w.sys.event? e with
  | none =>
    rw [hev] at hw
    cases hw
    exact .of_ids rfl rfl
  | some ev =>
    simp only [hev] at hw
    split at hw
    · obtain ⟨w₁, hw₁, hw⟩ := bind_eq_ok.mp hw
      obtain ⟨hhandling, hfound, hqueued⟩ := h.handle hev
      obtain ⟨hgoes, -⟩ := (eventPendingHandleJobs_holds hhandling hqueued).of_ok hw₁
      obtain ⟨new, hext, -⟩ := hgoes.queue
      obtain ⟨ev', hev', hbare⟩ := hext.event? hgoes.sound.ties.unique hfound
      have hprogress : ev'.bare.progress = .handling := by rw [hbare]; rfl
      have hlater := hhandled hgoes.sound hev' hprogress hw
      exact (Later.of_ids (ids_setProgress _ _ _) rfl).trans
        ((Later.of_grows hext.grows).trans hlater)
    · rename_i hpending
      exact hhandled h hev (h.handling hev hpending) hw

/-- Whatever else happens, the queue grows at most. -/
theorem worldStep_grows {leak : EventId → Nat} {i : WorldInput} (h : WorldSound leak w)
    (hi : WorldEnabled x w i) (hpoll : ∀ e o, i ≠ .poll e o) (hexec : i ≠ .reexec)
    (hw : worldStep x w i = .ok w') : ∃ new, Grows w.sys w'.sys new := by
  have hstays : ∀ {m}, Stays ⟨leak, none, 0⟩ w m → m = .ok w' →
      ∃ new, Grows w.sys w'.sys new := by
    intro m hm hw
    obtain ⟨new, hext, -⟩ := (Sat.of_ok hm hw).queue
    exact ⟨new, hext.grows⟩
  cases i with
  | emit message name env valid wait file =>
    have hnew : ∀ blocking,
        ∃ new, Grows w.sys (eventNew w.sys name env valid file blocking).1 new :=
      fun _ => ⟨_, (Extends.eventNew _ _ _ _ _ _).grows⟩
    cases hw
    unfold controlEmitEvent
    cases message with
    | none => exact hnew _
    | some m =>
      cases wait with
      | true => exact hnew _
      | false =>
        obtain ⟨new, hgrows⟩ := hnew []
        exact ⟨_, hgrows.trans (Extends.act _ _).grows⟩
  | poll e o => exact absurd rfl (hpoll e o)
  | job id input => exact hstays (worldJobStep_stays h hi) hw
  | classStart c message env wait =>
    obtain ⟨r, hr, rfl⟩ := hi
    exact hstays (jobClassStart_stays h (h.inTable hr)) hw
  | load source path content override => exact hstays (confLoadPathWithOverride_stays h) hw
  | delete source path => exact hstays (confDeleteHandler_stays h) hw
  | inductJobs o =>
    exact hstays (Sat.imp (jobClassInductJobs_holds h) fun _ h' => h'.1) hw
  | reexec => exact absurd rfl hexec

theorem worldStep_later {leak : EventId → Nat} {i : WorldInput} (h : WorldSound leak w)
    (hi : WorldEnabled x w i) (hw : worldStep x w i = .ok w') : Later w.sys w'.sys := by
  have hgrows : (∀ e o, i ≠ .poll e o) → i ≠ .reexec → Later w.sys w'.sys := by
    intro hpoll hexec
    obtain ⟨new, hgrows⟩ := worldStep_grows h hi hpoll hexec hw
    exact .of_grows hgrows
  cases i with
  | poll e o => exact eventPollEvent_later h hw
  | reexec =>
    obtain ⟨-, hw⟩ := check_bind_eq_ok.mp hw
    obtain ⟨-, hw⟩ := check_bind_eq_ok.mp hw
    cases hw
    refine .of_ids ?_ rfl
    show (w.sys.events.map Event.restore).map Event.id = w.sys.events.map Event.id
    rw [List.map_map]
    rfl
  | _ => exact hgrows (by simp) (by simp)

/-- The queue is always in the order of emission. -/
theorem reached_sorted {C : Host → World → WorldInput → Prop} (h : WorldReached C w) :
    (w.sys.events.map Event.id).Pairwise (· < ·) := by
  have hinv : (∃ leak, WorldSound leak w) ∧ (w.sys.events.map Event.id).Pairwise (· < ·) := by
    refine Reach.invariant (I := fun w => (∃ leak, WorldSound leak w) ∧
      (w.sys.events.map Event.id).Pairwise (· < ·)) ?_ ?_ h
    · intro w hw
      exact ⟨⟨_, hw.sound⟩, by simp [hw.events]⟩
    · intro w i hinv hi
      obtain ⟨⟨leak, hs⟩, hsorted⟩ := hinv
      refine sat_iff.mpr ⟨fun w' hw => ?_, fun _ _ => trivial⟩
      exact ⟨⟨_, (worldStep_sound hs hi.1).of_ok hw⟩,
        (worldStep_later hs hi.1 hw).sorted hs.ties.given hsorted⟩
  exact hinv.2

/-! ## The end of the loop -/

/-- What the new ones of some events that follow a failed one say depends on their
faces alone. -/
theorem filter_text_of_faces {evs evs' : List Event} (last : EventId)
    (h : evs.map Event.face = evs'.map Event.face) :
    (evs.filter fun ev => decide (last < ev.id) && ev.followsFailure).map Event.text =
      (evs'.filter fun ev => decide (last < ev.id) && ev.followsFailure).map Event.text := by
  have hfaces : ∀ evs : List Event,
      (evs.filter fun ev => decide (last < ev.id) && ev.followsFailure).map Event.text =
        ((evs.map Event.face).filter fun f => decide (last < f.1) &&
          "/failed".toList.isSuffixOf f.2.1.toList).map fun f => (f.2.1, f.2.2.1) := by
    intro evs
    rw [List.filter_map, List.map_map]
    rfl
  rw [hfaces, hfaces, h]

/-- When `event_poll` returns, all events that are left are being handled and blocked.
Meanwhile it has handed on each event that was pending or has been emitted once, in the
order of emission, and has finished each event that has left the queue once; each of
them that failed, and does not follow a failed one itself, has been followed by one event
with its environment. -/
theorem eventPoll_quiesces {C : Host → World → WorldInput → Prop} (h : WorldReached C w)
    {hosts : List (Host × HashOrder)} {calls : List PollCall}
    (hw : eventPoll hosts w = .ok (w', calls)) :
    (∀ ev ∈ w'.sys.events, ev.progress = .handling ∧ 0 < ev.blockers) ∧
      (pendings calls).map Event.id =
        (w.sys.events.filter fun ev => ev.progress = .pending).map Event.id ++
          List.range' (w.sys.lastEvent + 1) (w'.sys.lastEvent - w.sys.lastEvent) ∧
      ((pendings calls).map Event.id).Pairwise (· < ·) ∧
      ((finishes calls).map Event.id).Nodup ∧
      (∀ e, e ∈ (finishes calls).map Event.id ↔
        (e ∈ w.sys.events.map Event.id ∨ w.sys.lastEvent < e ∧ e ≤ w'.sys.lastEvent) ∧
          e ∉ w'.sys.events.map Event.id) ∧
      ((pendings calls).filter fun ev =>
        decide (w.sys.lastEvent < ev.id) && ev.followsFailure).map Event.text =
        ((finishes calls).filter Event.failsOn).map Event.failureText := by
  obtain ⟨leak, hs⟩ := reached_worldSound h
  have hsorted := reached_sorted h
  have hcursor : AtCursor leak w [] false := ⟨hs, by simp, by simp, by simp⟩
  obtain ⟨hs', ⟨new, hwalked⟩, hquiet⟩ := eventPollFrom_walked hcursor hw
  have hnone : pendingFaces w'.sys = [] := by
    rw [pendingFaces_eq_filter, List.map_eq_nil_iff, List.filter_eq_nil_iff]
    intro ev hev
    simp [(hquiet ev hev).1]
  have hcount : w'.sys.lastEvent - w.sys.lastEvent = new.length := by
    rw [hwalked.lastEvent, Nat.add_sub_cancel_left]
  have htaken := hwalked.taken
  rw [hnone, List.append_nil, pendingFaces_eq_filter, ← List.map_append] at htaken
  have hids : (pendings calls).map Event.id =
      (w.sys.events.filter fun ev => ev.progress = .pending).map Event.id ++
        List.range' (w.sys.lastEvent + 1) new.length := by
    rw [map_id_of_faces, htaken, ← map_id_of_faces, List.map_append, hwalked.ids]
  have hgiven : ∀ ev ∈ w.sys.events, ev.id ≤ w.sys.lastEvent := hs.ties.given
  -- the events of before and the new ones, in the order of emission
  have hall : (w.sys.events.map Event.id ++
      List.range' (w.sys.lastEvent + 1) new.length).Pairwise (· < ·) := by
    refine List.pairwise_append.mpr ⟨hsorted, List.pairwise_lt_range', fun e he e' he' => ?_⟩
    obtain ⟨ev, hev, rfl⟩ := List.mem_map.mp he
    exact Nat.lt_of_le_of_lt (hgiven ev hev) (List.mem_range'_1.mp he').1
  have hkept := hwalked.kept
  rw [hwalked.ids] at hkept
  have hnodup := hkept.nodup_iff.mpr (hall.imp Nat.ne_of_lt)
  obtain ⟨hfinishes, -, hdisjoint⟩ := List.nodup_append.mp hnodup
  refine ⟨hquiet, hcount ▸ hids, ?_, hfinishes, fun e => ?_, ?_⟩
  · rw [hids]
    exact hall.sublist ((List.filter_sublist.map _).append_right _)
  · have hmem := hkept.mem_iff (a := e)
    rw [List.mem_append, List.mem_append, List.mem_range'_1] at hmem
    have hrange : w.sys.lastEvent < e ∧ e ≤ w'.sys.lastEvent ↔
        w.sys.lastEvent + 1 ≤ e ∧ e < w.sys.lastEvent + 1 + new.length := by
      rw [hwalked.lastEvent, Nat.succ_le_iff, Nat.add_right_comm, Nat.lt_succ_iff]
    rw [hrange, ← hmem]
    constructor
    · intro he
      exact ⟨.inl he, fun he' => hdisjoint e he e he' rfl⟩
    · intro he
      exact he.1.resolve_right he.2
  · rw [filter_text_of_faces _ htaken, ← hwalked.follow, List.filter_append]
    have hold : (w.sys.events.filter fun ev => ev.progress = .pending).filter (fun ev =>
        decide (w.sys.lastEvent < ev.id) && ev.followsFailure) = [] := by
      refine List.filter_eq_nil_iff.mpr fun ev hev => ?_
      have hle := hgiven ev (List.mem_filter.mp hev).1
      simp [Nat.not_lt.mpr hle]
    have hnew : new.filter (fun ev => decide (w.sys.lastEvent < ev.id) && ev.followsFailure) =
        new.filter Event.followsFailure := by
      refine List.filter_congr fun ev hev => ?_
      have hrange : ev.id ∈ new.map Event.id := List.mem_map_of_mem hev
      rw [hwalked.ids, List.mem_range'_1] at hrange
      have hlt : w.sys.lastEvent < ev.id := hrange.1
      simp [hlt]
    rw [hold, hnew]
    rfl

/-- An event starts a job; `event_poll` hands it on with the one that the job emits, and
returns when the process of the job runs. -/
theorem eventPoll_quiesces_started :
    ∃ w hosts w' calls, WorldReached Anything w ∧ eventPoll hosts w = .ok (w', calls) ∧
      (pendings calls).map Event.name = ["e", "starting"] ∧
      (∀ ev ∈ w'.sys.events, ev.progress = .handling ∧ 0 < ev.blockers) := by
  have h₁ := (reached_newWorld Anything).next
    (.load 1 "/two/a.conf" (some onceParsed) none) ⟨trivial, trivial⟩ rfl
  have h₂ := h₁.next (.emit none "e" [] rfl false (-1)) ⟨trivial, trivial⟩ rfl
  have hend := fun w' calls
    (hw : eventPoll (List.replicate 4 (plainHost, listOrder)) _ = .ok (w', calls)) =>
      (eventPoll_quiesces h₂ hw).1
  exact ⟨_, List.replicate 4 (plainHost, listOrder), _, _, h₂, rfl, rfl, hend _ _ rfl⟩

end Startup
