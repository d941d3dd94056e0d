import Startup.Event.Operator
import Mathlib.Data.List.Range

/-!
# Accounts of the event queue

* `Sys.blockers`: the blocker count of the event at an address.
* `Extends`: a call changes nothing of the events in the queue but their
  blocker counts and failures, and adds new events at its end.
* `blockAll_sat`, `unblockAll_sat`: taking and giving back blocks changes the
  counts by as many, and cannot fail for blocks that are held.
* what the functions of a condition do to the counts, for a condition whose
  leaves refer to events that they block.
-/

namespace Startup

open Lib

/-- The `blockers` field of the event at an address. -/
def Sys.blockers (sys : Sys) (e : EventId) : Nat :=
  ((sys.event? e).map (·.blockers)).getD 0

theorem Sys.event?_isSome_of_blockers {sys : Sys} {e : EventId} (h : 0 < sys.blockers e) :
    (sys.event? e).isSome = true := by
  unfold Sys.blockers at h
  cases he : sys.event? e with
  | none => simp [he] at h
  | some ev => rfl

/-- What a call of the job machinery leaves unchanged of an event. -/
def Event.bare (ev : Event) : Event :=
  { ev with blockers := 0, failed := false }

@[simp] theorem Event.bare_id (ev : Event) : ev.bare.id = ev.id := rfl

/-- The queue of `sys'` is the queue of `sys` with the events `new` at its
end; the events that were there have changed at most their counts. -/
structure Extends (sys sys' : Sys) (new : List Event) : Prop where
  events : sys'.events.map Event.bare = sys.events.map Event.bare ++ new
  ids : new.map Event.id = List.range' (sys.lastEvent + 1) new.length
  lastEvent : sys'.lastEvent = sys.lastEvent + new.length
  pending : ∀ ev ∈ new, ev.progress = .pending
  lastPid : sys.lastPid ≤ sys'.lastPid
  log : ∃ acts, sys'.log = acts ++ sys.log

namespace Extends

variable {sys sys' sys'' : Sys} {new new' : List Event}

theorem refl (sys : Sys) : Extends sys sys [] :=
  ⟨by simp, rfl, rfl, by simp, le_refl _, [], rfl⟩

theorem trans (h : Extends sys sys' new) (h' : Extends sys' sys'' new') :
    Extends sys sys'' (new ++ new') := by
  refine ⟨?_, ?_, ?_, ?_, le_trans h.lastPid h'.lastPid, ?_⟩
  · rw [h'.events, h.events, List.append_assoc]
  · rw [List.map_append, h.ids, h'.ids, h.lastEvent, List.length_append,
      ← List.range'_append_1, Nat.add_right_comm]
  · rw [h'.lastEvent, h.lastEvent, List.length_append, Nat.add_assoc]
  · intro ev hev
    rcases List.mem_append.mp hev with hev | hev
    · exact h.pending ev hev
    · exact h'.pending ev hev
  · obtain ⟨acts, ha⟩ := h.log
    obtain ⟨acts', ha'⟩ := h'.log
    exact ⟨acts' ++ acts, by rw [ha', ha, List.append_assoc]⟩

/-- An event of the old queue changes at most its counts. -/
theorem event_bare (h : Extends sys sys' new) {e : EventId}
    (he : (sys.event? e).isSome = true) :
    (sys'.event? e).map Event.bare = (sys.event? e).map Event.bare := by
  have hfind : ∀ s : Sys, (s.event? e).map Event.bare =
      (s.events.map Event.bare).find? fun ev => ev.id = e := by
    intro s
    rw [List.find?_map]
    rfl
  obtain ⟨ev, hev⟩ := Option.isSome_iff_exists.mp he
  rw [hfind, h.events, List.find?_append, ← hfind, hev]
  rfl

/-- An event of the old queue is in the new one. -/
theorem event?_isSome (h : Extends sys sys' new) {e : EventId}
    (he : (sys.event? e).isSome = true) : (sys'.event? e).isSome = true := by
  have hbare := congrArg Option.isSome (h.event_bare he)
  rw [Option.isSome_map, Option.isSome_map] at hbare
  exact hbare.trans he

/-- An action is logged; the queue stays. -/
theorem act (sys : Sys) (a : Action) : Extends sys (sys.act a) [] :=
  ⟨by simp [Sys.act], rfl, rfl, by simp, le_refl _, [a], rfl⟩

end Extends

/-- Nothing but blocker counts and failures of events changes. -/
structure Touches (sys sys' : Sys) : Prop where
  events : sys'.events.map Event.bare = sys.events.map Event.bare
  lastEvent : sys'.lastEvent = sys.lastEvent
  lastPid : sys'.lastPid = sys.lastPid
  log : sys'.log = sys.log

namespace Touches

variable {sys sys' sys'' : Sys}

theorem refl (sys : Sys) : Touches sys sys := ⟨rfl, rfl, rfl, rfl⟩

theorem trans (h : Touches sys sys') (h' : Touches sys' sys'') : Touches sys sys'' :=
  ⟨h'.events.trans h.events, h'.lastEvent.trans h.lastEvent, h'.lastPid.trans h.lastPid,
    h'.log.trans h.log⟩

theorem toExtends (h : Touches sys sys') : Extends sys sys' [] :=
  ⟨by simp [h.events], rfl, h.lastEvent, by simp, le_of_eq h.lastPid.symm, [], h.log⟩

theorem event?_isSome (h : Touches sys sys') {e : EventId}
    (he : (sys.event? e).isSome = true) : (sys'.event? e).isSome = true :=
  h.toExtends.event?_isSome he

end Touches

theorem Sys.blockers_act (sys : Sys) (a : Action) (e : EventId) :
    (sys.act a).blockers e = sys.blockers e := rfl

/-! ## One event -/

section Modify

variable {sys : Sys} {e : EventId} {f : Event → Event}

theorem event?_modifyEvent (hf : ∀ ev, (f ev).id = ev.id) (e' : EventId) :
    (sys.modifyEvent e f).event? e' =
      (sys.event? e').map fun ev => if ev.id = e then f ev else ev := by
  simp only [Sys.event?, Sys.modifyEvent, List.find?_map]
  congr 1
  congr 1
  funext ev
  simp only [Function.comp]
  split <;> simp [hf]

theorem touches_modifyEvent (hf : ∀ ev, (f ev).bare = ev.bare) :
    Touches sys (sys.modifyEvent e f) := by
  refine ⟨?_, rfl, rfl, rfl⟩
  simp only [Sys.modifyEvent, List.map_map]
  refine List.map_congr_left fun ev _ => ?_
  simp only [Function.comp]
  split <;> simp [hf]

theorem blockers_modifyEvent (hf : ∀ ev, (f ev).id = ev.id) (e' : EventId) :
    (sys.modifyEvent e f).blockers e' =
      if e' = e then ((sys.event? e).map fun ev => (f ev).blockers).getD 0
      else sys.blockers e' := by
  unfold Sys.blockers
  rw [event?_modifyEvent hf]
  cases he : sys.event? e' with
  | none =>
    split
    · rename_i h
      simp [← h, he]
    · rfl
  | some ev =>
    have hid : ev.id = e' := by
      have := List.find?_some he
      simpa using this
    by_cases h : e' = e
    · subst h
      simp [he, hid]
    · simp [hid, h]

end Modify

theorem eventBlock_sat {sys : Sys} {e : EventId} (h : (sys.event? e).isSome = true) :
    Sat (eventBlock sys e)
      (fun sys' => Touches sys sys' ∧
        ∀ e', sys'.blockers e' = sys.blockers e' + if e' = e then 1 else 0)
      (fun _ => False) := by
  unfold eventBlock
  cases he : sys.event? e with
  | none => simp [he] at h
  | some ev =>
    refine ⟨touches_modifyEvent fun _ => rfl, fun e' => ?_⟩
    rw [blockers_modifyEvent (f := fun ev => { ev with blockers := ev.blockers + 1 })
      (fun _ => rfl)]
    split
    · rename_i heq
      subst heq
      simp [Sys.blockers, he]
    · rfl

/-- `event_unblock` fails only for an event that nobody blocks. -/
theorem eventUnblock_sat {sys : Sys} {e : EventId} :
    Sat (eventUnblock sys e)
      (fun sys' => Touches sys sys' ∧
        ∀ e', sys'.blockers e' + (if e' = e then 1 else 0) = sys.blockers e')
      (fun f => sys.blockers e = 0 ∧
        (f = .assertFailed .eventUnblock ∨ f = .useAfterFree .eventUnblock)) := by
  unfold eventUnblock
  cases he : sys.event? e with
  | none => exact ⟨by simp [Sys.blockers, he], .inr rfl⟩
  | some ev =>
    have hev : sys.blockers e = ev.blockers := by simp [Sys.blockers, he]
    refine sat_assert (fun h => ⟨?_, .inl rfl⟩) fun hb => ?_
    · rw [hev]
      simpa using h
    have hb : 0 < ev.blockers := by simpa using hb
    refine ⟨touches_modifyEvent fun _ => rfl, fun e' => ?_⟩
    rw [blockers_modifyEvent (f := fun ev => { ev with blockers := ev.blockers - 1 })
      (fun _ => rfl)]
    split
    · rename_i heq
      subst heq
      simp only [he, Option.map_some, Option.getD_some, hev]
      omega
    · rfl

/-! ## Several events -/

theorem count_cons_ite (e e' : EventId) (es : List EventId) :
    (e :: es).count e' = es.count e' + if e' = e then 1 else 0 := by
  by_cases h : e' = e
  · simp [h]
  · simp [h, Ne.symm h]

/-- Blocking events that are in the queue. -/
theorem blockAll_sat (sys : Sys) {es : List EventId}
    (h : ∀ e ∈ es, (sys.event? e).isSome = true) :
    Sat (blockAll sys es)
      (fun sys' => Touches sys sys' ∧
        ∀ e, sys'.blockers e = sys.blockers e + es.count e)
      (fun _ => False) := by
  induction es generalizing sys with
  | nil => exact ⟨.refl sys, by simp⟩
  | cons e es ih =>
    rw [blockAll, List.foldlM_cons, sat_bind]
    refine (eventBlock_sat (h e List.mem_cons_self)).imp ?_
    rintro sys₁ ⟨hsame, hcount⟩
    refine (ih sys₁ fun e' he' => hsame.event?_isSome (h e' (List.mem_cons_of_mem _ he'))).imp ?_
    rintro sys₂ ⟨hsame', hcount'⟩
    refine ⟨hsame.trans hsame', fun e' => ?_⟩
    rw [hcount', hcount, count_cons_ite]
    omega

/-- Giving back blocks that are held. -/
theorem unblockAll_sat {sys : Sys} {es : List EventId}
    (h : ∀ e, es.count e ≤ sys.blockers e) :
    Sat (unblockAll sys es)
      (fun sys' => Touches sys sys' ∧
        ∀ e, sys'.blockers e + es.count e = sys.blockers e)
      (fun _ => False) := by
  induction es generalizing sys with
  | nil => exact ⟨.refl sys, by simp⟩
  | cons e es ih =>
    rw [unblockAll, List.foldlM_cons, sat_bind]
    have hcons := fun e' => count_cons_ite e e' es
    have hpos : 0 < sys.blockers e := by
      have := h e
      rw [hcons, if_pos rfl] at this
      omega
    refine eventUnblock_sat.mono ?_ fun f hf => by omega
    rintro sys₁ ⟨hsame, hcount⟩
    have hle : ∀ e', es.count e' ≤ sys₁.blockers e' := by
      intro e'
      have h₁ := h e'
      have h₂ := hcount e'
      rw [hcons] at h₁
      omega
    refine (ih hle).imp ?_
    rintro sys₂ ⟨hsame', hcount'⟩
    refine ⟨hsame.trans hsame', fun e' => ?_⟩
    have h₁ := hcount e'
    have h₂ := hcount' e'
    rw [hcons]
    omega

/-! ## Conditions -/

/-- A condition whose leaves refer to events that are in the queue. -/
structure Grounded (sys : Sys) (root : EventOperator) : Prop where
  linked : root.Linked
  queued : ∀ e ∈ root.refs, (sys.event? e).isSome = true

theorem Grounded.mono {sys sys' : Sys} {root : EventOperator} {new : List Event}
    (h : Grounded sys root) (hext : Extends sys sys' new) : Grounded sys' root :=
  ⟨h.linked, fun e he => hext.event?_isSome (h.queued e he)⟩

theorem handleOperator_sat {x : Host} {sys : Sys} {root : EventOperator} {event : Event}
    {env : List String} (h : root.Linked) (he : (sys.event? event.id).isSome = true) :
    Sat (handleOperator x sys root event env)
      (fun r => Touches sys r.1 ∧ r.2.1.Linked ∧
        (∀ e ∈ r.2.1.refs, e ∈ root.refs ∨ e = event.id) ∧
        ∀ e, r.1.blockers e + root.refs.count e = sys.blockers e + r.2.1.refs.count e)
      (fun _ => False) := by
  unfold handleOperator
  dsimp only
  rw [sat_bind]
  refine (blockAll_sat sys ?_).imp ?_
  · intro e hmem
    rw [List.eq_of_mem_replicate hmem]
    exact he
  · rintro sys' ⟨hsame, hcount⟩
    have hrefs := fun e => EventOperator.count_refs_handle x event env h e
    refine ⟨hsame, h.handle x event env, ?_, fun e => ?_⟩
    · intro e (hmem : e ∈ (eventOperatorHandle x event env root).1.refs)
      by_cases heq : e = event.id
      · exact .inr heq
      · left
        have := hrefs e
        rw [if_neg heq, Nat.add_zero] at this
        rw [← List.count_pos_iff] at hmem ⊢
        omega
    · simp only [hcount, hrefs, List.count_replicate, beq_iff_eq, eq_comm (a := event.id)]
      omega

theorem resetOperator_sat {sys : Sys} {root : EventOperator}
    (h : ∀ e, root.refs.count e ≤ sys.blockers e) :
    Sat (resetOperator sys root)
      (fun r => Touches sys r.1 ∧ r.2 = eventOperatorReset root ∧
        ∀ e, r.1.blockers e + root.refs.count e = sys.blockers e)
      (fun _ => False) := by
  unfold resetOperator
  rw [sat_bind]
  exact (unblockAll_sat h).imp fun _ h => ⟨h.1, rfl, h.2⟩

/-- The iterations over a condition find the events that its leaves refer to. -/
theorem filteredEvents_sat {fn : SourceFn} {sys : Sys} {root : EventOperator}
    (h : Grounded sys root) :
    Sat (filteredEvents fn sys root) (fun es => ∀ ev ∈ es, sys.event? ev.id = some ev)
      (fun _ => False) := by
  have hmem : ∀ ref ∈ root.filtered, ∃ e ∈ root.refs, ref = some e :=
    fun ref href => h.linked.mem_filtered href
  unfold filteredEvents
  generalize root.filtered = refs at hmem
  induction refs with
  | nil => exact fun ev hev => by simp at hev
  | cons ref refs ih =>
    obtain ⟨e, he, rfl⟩ := hmem ref List.mem_cons_self
    obtain ⟨ev, hev⟩ := Option.isSome_iff_exists.mp (h.queued e he)
    have hid : ev.id = e := by simpa using List.find?_some hev
    simp only [List.mapM_cons, hev, sat_bind, sat_ok]
    refine (ih fun ref href => hmem ref (List.mem_cons_of_mem _ href)).imp fun es hes => ?_
    intro ev' hev'
    rcases List.mem_cons.mp hev' with rfl | hev'
    · rw [hid]
      exact hev
    · exact hes ev' hev'

/-- The events that a condition makes wait are blocked as often as they are
listed. -/
theorem eventOperatorEvents_sat {sys : Sys} {root : EventOperator} (h : Grounded sys root) :
    Sat (eventOperatorEvents sys root)
      (fun r => Touches sys r.1 ∧ ∃ es : List EventId,
        r.2 = es.map Blocked.event ∧ ∀ e, r.1.blockers e = sys.blockers e + es.count e)
      (fun _ => False) := by
  unfold eventOperatorEvents
  rw [sat_bind]
  refine (filteredEvents_sat h).imp fun events hevents => ?_
  rw [sat_bind]
  refine (blockAll_sat sys ?_).imp fun sys' h' => ?_
  · intro e he
    obtain ⟨ev, hev, rfl⟩ := List.mem_map.mp he
    simp [hevents ev hev]
  · exact ⟨h'.1, events.map (·.id), by simp, h'.2⟩

theorem eventOperatorEnvironment_sat {x : Host} {sys : Sys} {root : EventOperator}
    {env : List String} {key : String} (h : Grounded sys root) :
    Sat (eventOperatorEnvironment x sys root env key) (fun _ => True) (fun _ => False) := by
  unfold eventOperatorEnvironment
  rw [sat_bind]
  exact (filteredEvents_sat h).imp fun _ _ => trivial

theorem eventOperatorFds_sat {x : Host} {sys : Sys} {root : EventOperator}
    {env : List String} {key : String} (h : Grounded sys root) :
    Sat (eventOperatorFds x sys root env key) (fun _ => True) (fun _ => False) := by
  unfold eventOperatorFds
  rw [sat_bind]
  exact (filteredEvents_sat h).imp fun _ _ => trivial

end Startup
