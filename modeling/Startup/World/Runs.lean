import Startup.World.Files
import Startup.World.Finishing
import Startup.World.Machine
import Startup.World.Overrides

/-!
# The invariant holds in every run

Every step keeps the invariant.  A re-execution drops the classes that are not
registered together with the blocks that they hold, so that the blocker counts
may be too high afterwards; nothing else makes them so.

* `reached_accounts`: in the runs in which no unregistered class holds a match
  when init executes itself again, the blocker counts are exact, and no step
  fails in the queue.
* `reached_ties`: in every run, a job waits for an event exactly when the event
  has an entry for it.
-/

namespace Startup

open Lib

variable {k : Slack} {x : Host} {w w' : World} {leak : EventId → Nat}

/-! ## Re-execution -/

/-- The blocks that a re-execution forgets. -/
def dropped (w : World) (e : EventId) : Nat :=
  w.classes.tally fun cls => if w.serialised cls then 0 else cls.refs.count e

theorem refs_restore (job : Job) : job.restore.refs = job.refs := by
  have hfilter : (job.blocking.filter Blocked.survives).filterMap Blocked.event? =
      job.blocking.filterMap Blocked.event? := by
    rw [List.filterMap_filter]
    refine List.filterMap_congr fun b _ => ?_
    cases b <;> rfl
  rw [Job.refs, Job.refs]
  exact congrArg _ hfilter

theorem event?_restore (sys : Sys) (e : EventId) :
    Sys.event? { sys with events := sys.events.map Event.restore } e =
      (sys.event? e).map Event.restore := by
  rw [Sys.event?, List.find?_map]
  rfl

theorem blockers_restore (sys : Sys) (e : EventId) :
    Sys.blockers { sys with events := sys.events.map Event.restore } e = sys.blockers e := by
  rw [Sys.blockers, event?_restore, Sys.blockers]
  cases sys.event? e <;> rfl

theorem blockerOf_restore (jobs : Store Job) (id : JobId) :
    blockerOf (jobs.map Job.restore fun _ => rfl) id = blockerOf jobs id := by
  have hget : (jobs.map Job.restore fun _ => rfl).get? id = (jobs.get? id).map Job.restore :=
    Store.get?_map
  refine (congrArg (Option.bind · Job.blocker) hget).trans ?_
  unfold blockerOf
  cases jobs.get? id <;> rfl

/-- The class that is registered under its own name is written. -/
theorem serialised_of_registered {c : ClassId} {cls : ClassState}
    (hget : w.classes.get? c = some cls) (hreg : w.getRegistered cls.config.name = some c) : w.serialised cls = true := by
  have hid : cls.id = c := Store.key_of_get? hget
  rw [World.serialised, hreg, hid]
  exact decide_eq_true rfl

theorem get?_serialised {c : ClassId} {cls : ClassState} (hget : w.classes.get? c = some cls)
    (hs : w.serialised cls = true) : (w.classes.filter w.serialised).get? c = some cls := by
  obtain ⟨hmem, hkey⟩ := Store.get?_eq_some.mp hget
  exact Store.get?_eq_some.mpr ⟨Store.mem_filter.mpr ⟨hmem, hs⟩, hkey⟩

/-- Every job is in a class that is written. -/
theorem Housing.jobs_serialised (h : Housing w.classes w.registered w.jobs) :
    (w.jobs.filter fun job => (w.classes.get? job.classId).any w.serialised) = w.jobs := by
  refine Store.ext (List.filter_eq_self.mpr fun job hj => ?_)
  obtain ⟨cls, hget, hreg⟩ := h.homes job hj
  rw [hget]
  exact serialised_of_registered hget hreg

theorem Housing.restore (h : Housing w.classes w.registered w.jobs) :
    Housing (w.classes.filter w.serialised) w.registered
      (w.jobs.map Job.restore fun _ => rfl) := by
  constructor
  · intro job hj
    obtain ⟨old, hold, rfl⟩ := Store.mem_map.mp hj
    obtain ⟨cls, hget, hreg⟩ := h.homes old hold
    exact ⟨cls, get?_serialised hget (serialised_of_registered hget hreg), hreg⟩
  · intro r hr
    obtain ⟨cls, hget, hname⟩ := h.known r hr
    refine ⟨cls, get?_serialised hget (serialised_of_registered hget ?_), hname⟩
    rw [hname, World.getRegistered, show r.name = key r from rfl, Store.get?_of_mem hr]
    rfl

/-- The blocks of the classes that are not written are forgotten. -/
theorem Accounts.restore (h : Accounts leak w.sys w.classes w.jobs) :
    Accounts (fun e => leak e + dropped w e)
      { w.sys with events := w.sys.events.map Event.restore } (w.classes.filter w.serialised)
      (w.jobs.map Job.restore fun _ => rfl) := by
  constructor
  case balance =>
    intro e
    have hclasses := Store.tally_filter_add w.classes w.serialised fun cls => cls.refs.count e
    have hmap : (w.jobs.map Job.restore fun _ => rfl).tally (fun job => job.refs.count e) =
        w.jobs.tally fun job => job.refs.count e :=
      (Store.tally_map _).trans (Store.tally_congr fun job _ => by rw [refs_restore])
    have hbalance := h.balance e
    rw [blockers_restore, references, hmap, dropped]
    rw [references] at hbalance
    omega
  case linked => exact fun cls hc => h.linked cls (Store.mem_filter.mp hc).1
  case entries =>
    intro job hj b hb
    obtain ⟨old, hold, rfl⟩ := Store.mem_map.mp hj
    exact h.entries old hold b (List.mem_filter.mp hb).1
  case leaves =>
    intro job hj
    obtain ⟨old, hold, rfl⟩ := Store.mem_map.mp hj
    exact h.leaves old hold

/-- The jobs that wait for events, and the entries that say so, are all written. -/
theorem Ties.restore (h : Ties 0 w.sys w.jobs) :
    Ties 0 { w.sys with events := w.sys.events.map Event.restore }
      (w.jobs.map Job.restore fun _ => rfl) := by
  constructor
  case unique =>
    have hmap : (w.sys.events.map Event.restore).map Event.id = w.sys.events.map Event.id := by
      rw [List.map_map]
      rfl
    exact hmap ▸ h.unique
  case given =>
    intro ev hev
    obtain ⟨old, hold, rfl⟩ := List.mem_map.mp hev
    exact h.given old hold
  case entries =>
    intro ev hev id
    obtain ⟨old, hold, rfl⟩ := List.mem_map.mp hev
    have hcount : (old.blocking.filter Blocked.survives).count (.job id) =
        old.blocking.count (.job id) := List.count_filter rfl
    rw [blockerOf_restore]
    exact hcount.trans (h.entries old hold id)
  case queued =>
    intro id e hb
    rw [blockerOf_restore] at hb
    rw [event?_restore, Option.isSome_map]
    exact h.queued id e hb
  case leaving => exact fun e id hne => absurd rfl hne
  case plain =>
    intro ev hev b hb
    obtain ⟨old, hold, rfl⟩ := List.mem_map.mp hev
    exact h.plain old hold b (List.mem_filter.mp hb).1

theorem stateFromString_sat (h : WorldSound leak w) :
    Sat (stateFromString w)
      (WorldSound fun e => leak e + dropped w e)
      (fun f => f.ofQueue = false) := by
  have hold : ∀ job ∈ (w.jobs.map Job.restore fun _ => rfl).items,
      ∃ old ∈ w.jobs.items, old.restore = job := fun job hj => Store.mem_map.mp hj
  unfold stateFromString
  refine sat_assert (fun _ => rfl) fun _ => sat_assert (fun _ => rfl) fun _ => ?_
  rw [h.housing.jobs_serialised]
  refine ⟨h.accounts.restore, h.ties.restore, h.housing.restore, fun ev hev hfin => ?_,
    fun cls hc => h.classIds cls (Store.mem_filter.mp hc).1, fun job hj => ?_, fun job hj => ?_,
    fun j hj j' hj' => ?_⟩
  · obtain ⟨old, hold, rfl⟩ := List.mem_map.mp hev
    exact h.progress old hold hfin
  · obtain ⟨old, hold, rfl⟩ := hold job hj
    exact h.jobIds old hold
  · obtain ⟨old, hold, rfl⟩ := hold job hj
    have hs := h.settled old hold
    exact ⟨hs.blocked, hs.resting, hs.respawn, hs.running, hs.waiting, hs.driven⟩
  · obtain ⟨old, hmem, rfl⟩ := hold j hj
    obtain ⟨old', hmem', rfl⟩ := hold j' hj'
    exact h.names old hmem old' hmem'

/-! ## Requests -/

theorem controlEmitEvent_sound (h : SoundWith k w) (message : Option MessageId) (name : String)
    (env : List String) (valid : environAllValid env = true) (wait : Bool) (file : Int) :
    SoundWith k (controlEmitEvent w message name env valid wait file) := by
  have hnew := h.eventNew name env valid file
    (if wait then message.toList.map Blocked.emitMethod else []) (by
      intro b hb
      split at hb
      · obtain ⟨m, -, hm⟩ := List.mem_map.mp hb
        exact ⟨m, hm.symm⟩
      · cases hb)
  cases message with
  | none => exact hnew
  | some m =>
    cases wait with
    | true => exact hnew
    | false => exact (hnew.act _).sound

theorem jobClassStart_stays {c : ClassId} {message : MessageId} {env : List String} {wait : Bool}
    (h : SoundWith k w) (htable : InTable w c) :
    Stays k w (jobClassStart x w c message env wait) := by
  have hrefused := h.act (.replied message false)
  unfold jobClassStart Stays
  rw [sat_bind]
  refine (getClass_sat rfl).imp fun cls ⟨hcls, hid⟩ => ?_
  obtain ⟨cls', hcls', hreg⟩ := htable
  rw [hcls] at hcls'
  cases hcls'
  subst hid
  dsimp only
  split
  · exact hrefused
  split
  · exact hrefused
  split
  · exact hrefused
  · rw [sat_bind]
    refine (findOrNew_sat h hcls hreg).imp ?_
    rintro ⟨w₁, job⟩ ⟨h₁, -, hjob⟩
    refine Stays.after (withJob_stays h₁.sound rfl fun job' hget => ?_) h₁
    have hmem := Store.mem_of_get? hget
    exact ⟨jobClassStartInstance_frame (h₁.sound.accounts.owned hmem),
      jobClassStartInstance_settled (h₁.sound.settled job' hmem), jobClassStartInstance_spent⟩

/-- A step of a job that is not part of the handling of an event. -/
theorem jobStep_acts {job : Job} {i : Input} (h : SoundWith k w) (hj : job ∈ w.jobs.items)
    (hdirect : i.direct) (hi : Enabled w.sys job i) : Acts w.sys job (jobStep x w.sys job i) := by
  have ho := h.accounts.owned hj
  refine ⟨?_, jobStep_settled (h.settled job hj) hi fun hne => absurd rfl hne, jobStep_spent⟩
  cases i with
  | changeGoal goal => exact jobChangeGoal_frame ho
  | start => exact jobStart_frame ho
  | stop => exact jobStop_frame ho
  | restart => exact jobRestart_frame ho
  | classStart => exact jobClassStartInstance_frame ho
  | classStop => exact jobClassStopInstance_frame ho
  | classRestart => exact jobClassRestartInstance_frame ho
  | childError => exact jobProcessChildReader_frame ho
  | childClosed => exact jobProcessCloseHandler_frame ho
  | childEvent => exact jobProcessHandler_frame ho
  | readyText => exact jobProcessReadyfdReader_frame ho
  | killTimer => exact jobProcessKillTimer_frame
  | stopEvent | induct | blockerFinished | elsewhere => exact hdirect.elim

/-- The step of a job of init. -/
theorem worldJobStep_stays {id : JobId} {input : Input} (h : SoundWith k w)
    (hi : WorldEnabled x w (.job id input)) : Stays k w (worldStep x w (.job id input)) := by
  obtain ⟨hdirect, job, hget, henabled⟩ := hi
  show Stays k w (withJob w .eventPending id fun sys job => jobStep x sys job input)
  refine withJob_stays h rfl fun job' hget' => ?_
  rw [hget] at hget'
  cases hget'
  exact jobStep_acts h (Store.mem_of_get? hget) hdirect henabled

/-! ## Every run -/

/-- What a step may make the counts too high by. -/
def leakOf (w : World) : WorldInput → EventId → Nat
  | .reexec => dropped w
  | _ => fun _ => 0

theorem worldStep_sound {i : WorldInput} (h : WorldSound leak w) (hi : WorldEnabled x w i) :
    Sat (worldStep x w i) (WorldSound fun e => leak e + leakOf w i e)
      (fun f => f.ofQueue = false) := by
  have hgoes : ∀ {m}, Stays ⟨leak, none, 0⟩ w m → Sat m (WorldSound leak)
      (fun f => f.ofQueue = false) := fun hm => Sat.imp hm fun _ h' => h'.sound
  cases i with
  | emit message name env valid wait file =>
    exact controlEmitEvent_sound h message name env valid wait file
  | poll e order => exact eventPollEvent_sat h |>.imp fun _ h' => h'.1
  | job id input => exact hgoes (worldJobStep_stays h hi)
  | classStart c message env wait =>
    obtain ⟨r, hr, rfl⟩ := hi
    exact hgoes (jobClassStart_stays h (h.inTable hr))
  | load source path content override => exact hgoes (confLoadPathWithOverride_stays h)
  | delete source path => exact hgoes (confDeleteHandler_stays h)
  | inductJobs order => exact (jobClassInductJobs_holds h).imp fun _ h' => h'.1.sound
  | reexec => exact stateFromString_sat h

theorem World.Initial.sound (h : w.Initial) : WorldSound (fun _ => 0) w := by
  have hblockers : ∀ e, w.sys.blockers e = 0 := fun e => by
    simp [Sys.blockers, Sys.event?, h.events]
  have hclasses : ∀ f : ClassState → Nat, w.classes.tally f = 0 := fun f => by
    simp [Store.tally, h.classes]
  have hjobs : ∀ f : Job → Nat, w.jobs.tally f = 0 := fun f => by simp [Store.tally, h.jobs]
  have hnone : ∀ id, blockerOf w.jobs id = none := fun id => by
    simp [blockerOf, Store.get?, h.jobs]
  refine ⟨⟨fun e => ?_, by simp [h.classes], by simp [h.jobs], by simp [h.jobs]⟩,
    ⟨by simp [h.events], by simp [h.events], by simp [h.events], fun id e hb => ?_,
      fun e id hne => absurd rfl hne, by simp [h.events]⟩,
    ⟨by simp [h.jobs], by simp [h.registered]⟩, by simp [h.events], by simp [h.classes],
    by simp [h.jobs], by simp [h.jobs], by simp [OneName, h.jobs]⟩
  · rw [hblockers, references, hclasses, hjobs]
    rfl
  · rw [hnone] at hb
    cases hb

/-- The invariant holds in every run. -/
theorem reached_worldSound {C : Host → World → WorldInput → Prop} (h : WorldReached C w) :
    ∃ leak, WorldSound leak w := by
  refine Reach.invariant (I := fun w => ∃ leak, WorldSound leak w) ?_ ?_ h
  · intro w hw
    exact ⟨_, hw.sound⟩
  · rintro w ⟨x, i⟩ ⟨leak, hs⟩ ⟨hi, -⟩
    exact (worldStep_sound hs hi).mono (fun w' h' => ⟨_, h'⟩) fun _ _ => trivial

/-! ## The accounts of the queue -/

/-- When init executes itself again, no unregistered class holds a match. -/
def KeepsMatches (_ : Host) (w : World) : WorldInput → Prop
  | .reexec => ∀ cls ∈ w.classes.items, w.serialised cls = false → cls.refs = []
  | _ => True

/-- In such a run the counts are exact. -/
theorem reached_exact (h : WorldReached KeepsMatches w) : WorldSound (fun _ => 0) w := by
  refine Reach.invariant (I := fun w => WorldSound (fun _ => 0) w) (fun w hw => hw.sound) ?_ h
  rintro w ⟨x, i⟩ hs ⟨hi, hkeeps⟩
  have hzero : ∀ e, leakOf w i e = 0 := by
    intro e
    cases i with
    | reexec =>
      refine Store.tally_eq_zero.mpr fun cls hcls => ?_
      cases hser : w.serialised cls with
      | true => rfl
      | false =>
        rw [hkeeps cls hcls hser]
        rfl
    | _ => rfl
  refine (worldStep_sound hs hi).mono (fun w' h' => ?_) fun _ _ => trivial
  simpa only [hzero, Nat.add_zero] using h'

/-- The blocker counts are exact, no step takes one below zero or uses an event
that has been freed, and an event that has left the queue has no references. -/
theorem reached_accounts (h : WorldReached KeepsMatches w) :
    (∀ e, w.sys.blockers e = references w.classes w.jobs e) ∧
      (∀ e, w.sys.event? e = none → references w.classes w.jobs e = 0) ∧
      ∀ x i, WorldEnabled x w i →
        Sat (worldStep x w i) (fun _ => True) (fun f => f.ofQueue = false) := by
  have hs := reached_exact h
  have hbalance : ∀ e, w.sys.blockers e = references w.classes w.jobs e := hs.accounts.balance
  refine ⟨hbalance, fun e he => ?_, fun x i hi => (worldStep_sound hs hi).imp fun _ _ => trivial⟩
  rw [← hbalance, Sys.blockers, he]
  rfl

/-- A condition on two events. -/
def onBoth : Unmatched :=
  ⟨.eventAnd false (.eventMatch "e" [] false none) (.eventMatch "f" [] false none), rfl⟩

/-- A file whose class starts on two events. -/
def bothParsed : Parsed where
  ok := true
  config := plainClass [.main]
  startOn := some (some onBoth)

/-- A file whose class starts on an event. -/
def onceParsed : Parsed where
  ok := true
  config := plainClass [.main]
  startOn := some (some ⟨.eventMatch "e" [] false none, rfl⟩)

/-- A table that yields its entries as they were put into it. -/
def listOrder : HashOrder := ⟨id, fun l => .refl l⟩

/-- The first of two events that a class waits for is in the queue. -/
theorem reached_accounts_half :
    ∃ w, WorldReached KeepsMatches w ∧ w.sys.blockers 1 = 1 ∧
      references w.classes w.jobs 1 = 1 := by
  have h₁ := (reached_newWorld KeepsMatches).next
    (.load 1 "/two/a.conf" (some bothParsed) none) ⟨trivial, trivial⟩ rfl
  have h₂ := h₁.next (.emit none "e" [] rfl false (-1)) ⟨trivial, trivial⟩ rfl
  have h₃ := h₂.next (.poll 1 listOrder) ⟨trivial, trivial⟩ rfl
  exact ⟨_, h₃, rfl, ((reached_accounts h₃).1 1).symm.trans rfl⟩

/-- A class that another one shadows holds a match when init executes itself
again: the event stays blocked, and nobody refers to it. -/
theorem shadowed_leak :
    ∃ w, WorldReached Anything w ∧ w.sys.blockers 1 = 1 ∧
      references w.classes w.jobs 1 = 0 := by
  have h₁ := (reached_newWorld Anything).next
    (.load 1 "/two/a.conf" (some bothParsed) none) ⟨trivial, trivial⟩ rfl
  have h₂ := h₁.next (.emit none "e" [] rfl false (-1)) ⟨trivial, trivial⟩ rfl
  have h₃ := h₂.next (.poll 1 listOrder) ⟨trivial, trivial⟩ rfl
  have h₄ := h₃.next (.load 0 "/one/a.conf" (some plainParsed) none) ⟨trivial, trivial⟩ rfl
  have h₅ := h₄.next .reexec ⟨trivial, trivial⟩ rfl
  exact ⟨_, h₅, rfl, rfl⟩

/-! ## Jobs and the events that they wait for -/

/-- A job waits for an event exactly when the event has one entry for it; no other event has
one, and every entry is for a job that is there.  When the event is finished, each job that
waits for it goes on exactly once, and no other job does. -/
theorem reached_ties {C : Host → World → WorldInput → Prop} (h : WorldReached C w) :
    (∀ id job e, w.jobs.get? id = some job →
      (job.blocker = some e ↔
        ∃ ev, w.sys.event? e = some ev ∧ ev.blocking.count (.job id) = 1)) ∧
      (∀ ev ∈ w.sys.events, ∀ id, .job id ∈ ev.blocking →
        ∃ job, w.jobs.get? id = some job ∧ job.blocker = some ev.id) ∧
      ∀ x e order ev, w.sys.event? e = some ev → Sat (worldStep x w (.poll e order))
        (fun w' => w'.sys.event? e = none → ∃ w₀, Handles x order ev w w₀ ∧
          (∀ id, blockerOf w₀.jobs id = some e ↔ blockerOf w.jobs id = some e) ∧
          GoneOn x (fun id => blockerOf w₀.jobs id = some e) w₀ w')
        (fun _ => True) := by
  obtain ⟨leak, hs⟩ := reached_worldSound h
  have hcount : ∀ {leak : EventId → Nat} {w : World}, WorldSound leak w → ∀ e ev,
      w.sys.event? e = some ev → ∀ id, ev.blocking.count (.job id) =
        if blockerOf w.jobs id = some e then 1 else 0 := by
    intro leak w hs e ev hev id
    obtain ⟨hmem, rfl⟩ := mem_of_event? hev
    exact hs.ties.entries ev hmem id
  have hentry : ∀ {leak : EventId → Nat} {w : World}, WorldSound leak w → ∀ e ev,
      w.sys.event? e = some ev → ∀ id, .job id ∈ ev.blocking ↔ blockerOf w.jobs id = some e := by
    intro leak w hs e ev hev id
    rw [← List.count_pos_iff, hcount hs e ev hev id]
    by_cases hb : blockerOf w.jobs id = some e <;> simp [hb]
  refine ⟨fun id job e hget => ⟨fun hb => ?_, ?_⟩, fun ev hev id hid => ?_,
    fun x e order ev hev => ?_⟩
  · have hblocker : blockerOf w.jobs id = some e := (blockerOf_of_get? hget).trans hb
    obtain ⟨ev, hev⟩ := Option.isSome_iff_exists.mp (hs.ties.queued id e hblocker)
    exact ⟨ev, hev, by rw [hcount hs e ev hev id, if_pos hblocker]⟩
  · rintro ⟨ev, hev, hone⟩
    have hmem : .job id ∈ ev.blocking := List.count_pos_iff.mp (by rw [hone]; exact Nat.one_pos)
    rw [hentry hs e ev hev id, blockerOf_of_get? hget] at hmem
    exact hmem
  · rw [hentry hs ev.id ev (event?_of_mem hs.ties.unique hev) id] at hid
    obtain ⟨job, hget, hblocker⟩ := Option.bind_eq_some_iff.mp hid
    exact ⟨job, hget, hblocker⟩
  · refine (eventPollEvent_sat hs).mono ?_ fun _ _ => trivial
    rintro w' ⟨-, hends⟩ hnone
    obtain ⟨w₀, ev₀, hhandles, hs₀, hev₀, hblocking, hpolled⟩ := hends ev hev
    refine ⟨w₀, hhandles, fun id => ?_, ?_⟩
    · rw [← hentry hs₀ e ev₀ hev₀ id, hblocking, hentry hs e ev hev id]
    · rcases hpolled with ⟨-, rfl⟩ | ⟨-, hgone⟩
      · rw [hev₀] at hnone
        cases hnone
      · exact hgone.imp fun id => hentry hs₀ e ev₀ hev₀ id

/-- A job waits for its starting event. -/
theorem reached_ties_starting :
    ∃ w job, WorldReached Anything w ∧ w.jobs.get? 1 = some job ∧ job.blocker = some 2 ∧
      ∃ ev, w.sys.event? 2 = some ev ∧ ev.blocking.count (.job 1) = 1 := by
  have h₁ := (reached_newWorld Anything).next
    (.load 1 "/two/a.conf" (some onceParsed) none) ⟨trivial, trivial⟩ rfl
  have h₂ := h₁.next (.emit none "e" [] rfl false (-1)) ⟨trivial, trivial⟩ rfl
  have h₃ := h₂.next (.poll 1 listOrder) ⟨trivial, trivial⟩ rfl
  exact ⟨_, _, h₃, rfl, rfl, ((reached_ties h₃).1 1 _ 2 rfl).mp rfl⟩

end Startup
