import Startup.Event.Semantics
import Startup.World.Files
import Startup.World.Overrides
import Startup.World.Runs

/-!
# What a new class takes over from the old one

A class may be replaced while some of the events that it waits for have already
come.  `job_class_event_block` offers them to the leaves of the new condition, from
left to right, and leaves its inner nodes alone; `job_class_reconsider` offers it
nothing, and an override that has a condition of its own discards what was taken
over.
-/

namespace Startup

open Lib

namespace EventOperator

/-- The leaves that are not true yet get the events that `f` has for them. -/
def takeOver (f : String → List String → Option EventId) : EventOperator → EventOperator
  | eventMatch name env v event =>
    if v then eventMatch name env v event
    else
      match f name env with
      | some e => eventMatch name env true (some e)
      | none => eventMatch name env v event
  | eventAnd v l r => eventAnd v (l.takeOver f) (r.takeOver f)
  | eventOr v l r => eventOr v (l.takeOver f) (r.takeOver f)

/-- No inner node is true, and every leaf has the event that `f` has for it. -/
def CarriedOver (f : String → List String → Option EventId) : EventOperator → Prop
  | eventMatch name env _ event => event = f name env
  | eventAnd v l r => v = false ∧ l.CarriedOver f ∧ r.CarriedOver f
  | eventOr v l r => v = false ∧ l.CarriedOver f ∧ r.CarriedOver f

variable {f g : String → List String → Option EventId} {root : EventOperator}

theorem takeOver_takeOver : (root.takeOver f).takeOver g =
    root.takeOver fun name env => (f name env).or (g name env) := by
  induction root with
  | eventMatch name env v event =>
    cases v with
    | true => rfl
    | false => cases hf : f name env <;> simp [takeOver, hf]
  | eventAnd v l r ihl ihr => rw [takeOver, takeOver, ihl, ihr, takeOver]
  | eventOr v l r ihl ihr => rw [takeOver, takeOver, ihl, ihr, takeOver]

theorem takeOver_none : root.takeOver (fun _ _ => none) = root := by
  induction root with
  | eventMatch name env v event => cases v <;> rfl
  | eventAnd v l r ihl ihr => rw [takeOver, ihl, ihr]
  | eventOr v l r ihl ihr => rw [takeOver, ihl, ihr]

theorem value_reset (root : EventOperator) : (eventOperatorReset root).value = false := by
  induction root with
  | eventMatch name env v event => rfl
  | eventAnd v l r ihl ihr =>
    show ((eventOperatorReset l).value && (eventOperatorReset r).value) = false
    rw [ihl, Bool.false_and]
  | eventOr v l r ihl ihr =>
    show ((eventOperatorReset l).value || (eventOperatorReset r).value) = false
    rw [ihl, ihr, Bool.or_self]

/-- A condition that has just been parsed becomes the old one exactly when that one has
nothing but what is offered to the leaves. -/
theorem takeOver_reset_eq_iff (h : root.Linked) :
    (eventOperatorReset root).takeOver f = root ↔ root.CarriedOver f := by
  induction root with
  | eventMatch name env v event =>
    have hv : v = event.isSome := h
    subst hv
    cases event <;> cases hf : f name env <;>
      simp [eventOperatorReset, takeOver, CarriedOver, hf, eq_comm]
  | eventAnd v l r ihl ihr =>
    simp only [eventOperatorReset, updateAnd, value_reset, takeOver, CarriedOver, Bool.and_self,
      eventAnd.injEq, ihl h.1, ihr h.2, eq_comm (a := false)]
  | eventOr v l r ihl ihr =>
    simp only [eventOperatorReset, updateOr, value_reset, takeOver, CarriedOver, Bool.or_self,
      eventOr.injEq, ihl h.1, ihr h.2, eq_comm (a := false)]

end EventOperator

/-- The first of some events that matches a leaf. -/
def firstMatch (x : Host) (sys : Sys) (es : List EventId) (name : String) (env : List String) :
    Option EventId :=
  es.find? fun e => (sys.event? e).any fun event => eventOperatorMatch x name env event []

variable {k : Slack} {x : Host} {w w' : World} {sys : Sys}

/-- `event_operator_handle` for the leaves is one event taken over. -/
theorem handleLeaves_eq_takeOver (x : Host) (event : Event) (root : EventOperator) :
    (handleLeaves x event root).1 = root.takeOver fun name env =>
      if eventOperatorMatch x name env event [] then some event.id else none := by
  induction root with
  | eventMatch name env v ev =>
    cases v <;> cases hm : eventOperatorMatch x name env event [] <;>
      simp [handleLeaves, eventOperatorHandle, EventOperator.takeOver, hm]
  | eventAnd v l r ihl ihr => simp [handleLeaves, EventOperator.takeOver, ihl, ihr]
  | eventOr v l r ihl ihr => simp [handleLeaves, EventOperator.takeOver, ihl, ihr]

/-- Counts do not matter for what an event matches. -/
theorem Touches.matches {sys' : Sys} (h : Touches sys sys') (x : Host) (name : String)
    (env : List String) (e : EventId) :
    ((sys'.event? e).any fun event => eventOperatorMatch x name env event []) =
      (sys.event? e).any fun event => eventOperatorMatch x name env event [] := by
  have hbare : ∀ s : Sys, ((s.event? e).any fun event => eventOperatorMatch x name env event []) =
      ((s.events.map Event.bare).find? fun ev => ev.id = e).any fun event =>
        eventOperatorMatch x name env event [] := by
    intro s
    rw [List.find?_map, show (fun ev => decide (ev.id = e)) ∘ Event.bare =
      fun ev : Event => decide (ev.id = e) from rfl, Sys.event?]
    cases s.events.find? fun ev => ev.id = e <;> rfl
  rw [hbare, hbare, h.events]

theorem firstMatch_touches {sys' : Sys} (h : Touches sys sys') (x : Host) (es : List EventId) :
    firstMatch x sys' es = firstMatch x sys es := by
  funext name env
  simp only [firstMatch, h.matches]

theorem firstMatch_cons (x : Host) (sys : Sys) (e : EventId) (es : List EventId) (name : String)
    (env : List String) :
    firstMatch x sys (e :: es) name env =
      (firstMatch x sys [e] name env).or (firstMatch x sys es name env) := by
  simp only [firstMatch, List.find?_cons, List.find?_nil]
  split <;> rfl

/-- The new condition takes over the first match of each leaf, and blocks its events. -/
theorem foldlM_blockMatched_takeOver {es : List EventId} {root : EventOperator}
    (he : ∀ e ∈ es, (sys.event? e).isSome = true) :
    Sat (es.foldlM (blockMatched x) (sys, root))
      (fun r => r.2 = root.takeOver (firstMatch x sys es)) (fun _ => False) := by
  induction es generalizing sys root with
  | nil => exact EventOperator.takeOver_none.symm
  | cons e es ih =>
    obtain ⟨event, hevent⟩ := Option.isSome_iff_exists.mp (he e List.mem_cons_self)
    have hid : event.id = e := by simpa using List.find?_some hevent
    rw [List.foldlM_cons, sat_bind]
    unfold blockMatched
    simp only [hevent]
    rw [sat_bind]
    refine (blockAll_sat sys ?_).imp ?_
    · intro e' he'
      rw [List.eq_of_mem_replicate he', hid]
      exact he e List.mem_cons_self
    · rintro sys' ⟨htouch, -⟩
      refine (ih fun e' he' => htouch.event?_isSome (he e' (List.mem_cons_of_mem e he'))).imp ?_
      intro r hr
      rw [hr, handleLeaves_eq_takeOver, EventOperator.takeOver_takeOver,
        firstMatch_touches htouch]
      congr 1
      funext name env
      rw [firstMatch_cons]
      congr 1
      simp only [firstMatch, List.find?_cons, List.find?_nil, hevent, hid, Option.any_some]
      split <;> simp_all

/-! ## Replacing the registered class -/

/-- The class that `parse_job` makes of a file, at its address. -/
def parsedClass (id : ClassId) (name : String) (parsed : Parsed) : ClassState where
  id
  config := { parsed.config with name := name }
  startOn := parsed.startOn.join.map Unmatched.root
  stopOn := parsed.stopOn.join.map Unmatched.root

/-- The state in which `conf_reload_path` calls `job_class_consider` for a file that has
been parsed. -/
def World.withParsed (w : World) (source : Nat) (path name : String) (parsed : Parsed) : World :=
  let w := w.removeFile source path
  let w := { w.putClass (parsedClass (w.lastClass + 1) name parsed) with
    lastClass := w.lastClass + 1 }
  w.putFile ⟨source, path, some w.lastClass⟩

theorem confFile?_removeFile (w : World) (source : Nat) (path : String) :
    (w.removeFile source path).confFile? source path = none := by
  apply List.find?_eq_none.mpr
  intro f hf
  have hne := of_decide_eq_true (List.mem_filter.mp hf).2
  simpa using hne

theorem SoundWith.withParsed (h : SoundWith k w) (source : Nat) (path name : String)
    {parsed : Parsed} (hok : parsed.ok = true) :
    SoundWith k (w.withParsed source path name parsed) := by
  have hfiles := h.setFiles (w.removeFile source path).files
  have hparsed : StaysWith k (w.removeFile source path) (fun _ _ => True)
      (parseJob (w.removeFile source path) none name parsed) := parseJob_stays hfiles.sound
  have hnew : parseJob (w.removeFile source path) none name parsed = .ok
      ({ (w.removeFile source path).putClass (parsedClass (w.lastClass + 1) name parsed) with
        lastClass := w.lastClass + 1 }, some (w.lastClass + 1)) := by
    simp only [parseJob, hok, if_true]
    rfl
  exact ((hparsed.of_ok hnew).1.sound.setFiles _).sound

/-- The event block: the new class gets the matches, and they are blocked once more. -/
theorem jobClassEventBlock_takeOver {old new : ClassState} {root root' : EventOperator}
    (h : SoundWith k w) (hold : w.classes.get? old.id = some old)
    (hnew : w.classes.get? new.id = some new) (hroot : old.startOn = some root)
    (hroot' : new.startOn = some root') (hempty : (w.instances old.id).isEmpty = true) :
    Sat (jobClassEventBlock x w old.id new.id)
      (fun w' => w'.registered = w.registered ∧ w'.jobs = w.jobs ∧
        w'.classes = w.classes.put
          { new with startOn := some (root'.takeOver (firstMatch x w.sys root.refs)) } ∧
        ∀ e, w'.sys.blockers e + root'.refs.count e =
          w.sys.blockers e + (root'.takeOver (firstMatch x w.sys root.refs)).refs.count e)
      (fun _ => False) := by
  have hg := h.accounts.grounded (Store.mem_of_get? hold) hroot
  have hl := (h.accounts.linked new (Store.mem_of_get? hnew)).1 root' hroot'
  have hstart : TakesOver w.sys root' (w.sys, root') := ⟨.refl _, hl, fun _ => rfl⟩
  unfold jobClassEventBlock World.getClass
  simp only [hold, hnew, hroot, hroot', hempty, if_true, bind, Except.bind]
  refine sat_bind.mpr ?_
  refine ((foldlM_blockMatched_sat hstart hg.queued).and
    (foldlM_blockMatched_takeOver hg.queued)).mono ?_ fun _ hf => hf.1
  rintro ⟨sys, _⟩ ⟨⟨htouch, hlinked, hb⟩, rfl⟩
  exact ⟨rfl, rfl, rfl, hb⟩

theorem jobClassAdd_onlyTable (w : World) (best : Option ClassId) :
    Sat (jobClassAdd w best) (fun w' => OnlyTable w w') (fun _ => True) := by
  unfold jobClassAdd
  cases best with
  | none => exact ⟨_, rfl⟩
  | some c =>
    rw [sat_bind]
    exact (sat_true (m := w.getClass _ c)).imp fun cls _ => ⟨_, rfl⟩

/-- A new class with what it takes over. -/
def ClassState.takingOver (new : ClassState) (f : String → List String → Option EventId) :
    ClassState :=
  { new with startOn := new.startOn.map (EventOperator.takeOver f) }

/-- The new class has its matches, whose events are blocked. -/
structure TookOver (w w' : World) (new : ClassState)
    (f : String → List String → Option EventId) : Prop where
  get : w'.classes.get? new.id = some (new.takingOver f)
  balance : ∀ e, w'.sys.blockers e + (new.startOn.elim [] EventOperator.refs).count e =
    w.sys.blockers e + ((new.takingOver f).startOn.elim [] EventOperator.refs).count e

theorem TookOver.onlyTable {w'' : World} {new : ClassState}
    {f : String → List String → Option EventId} (h : TookOver w w' new f)
    (ht : OnlyTable w' w'') : TookOver w w'' new f := by
  obtain ⟨registered, rfl⟩ := ht
  exact ⟨h.get, h.balance⟩

theorem jobClassEventBlock_tookOver {old new : ClassState} {root : EventOperator}
    (h : SoundWith k w) (hold : w.classes.get? old.id = some old)
    (hnew : w.classes.get? new.id = some new) (hroot : old.startOn = some root) :
    Sat (jobClassEventBlock x w old.id new.id)
      (fun w' => (w'.instances old.id).isEmpty = true →
        TookOver w w' new (firstMatch x w.sys root.refs)) (fun _ => True) := by
  cases hroot' : new.startOn with
  | none =>
    have hblock : jobClassEventBlock x w old.id new.id = .ok w := by
      simp only [jobClassEventBlock, World.getClass, hold, hnew, hroot, hroot', bind, Except.bind]
    rw [hblock]
    intro _
    refine ⟨?_, fun e => ?_⟩
    · rw [hnew, ClassState.takingOver, hroot', Option.map_none, ← hroot']
    · rw [ClassState.takingOver, hroot']
      rfl
  | some root' =>
    by_cases hempty : (w.instances old.id).isEmpty = true
    · refine (jobClassEventBlock_takeOver h hold hnew hroot hroot' hempty).mono ?_ fun _ _ => trivial
      rintro w' ⟨-, -, hclasses, hb⟩ -
      refine ⟨?_, fun e => ?_⟩
      · rw [hclasses, ClassState.takingOver, hroot']
        exact Store.get?_put_self
      · rw [ClassState.takingOver, hroot']
        exact hb e
    · have hblock : jobClassEventBlock x w old.id new.id = .ok w := by
        simp only [jobClassEventBlock, World.getClass, hold, hnew, hroot, hroot', hempty, bind,
          Except.bind, Bool.false_eq_true, if_false]
      rw [hblock]
      intro hno
      exact absurd hno hempty

/-- A class that replaces the registered one has taken over its matches. -/
theorem jobClassConsider_tookOver {old new : ClassState} {root : EventOperator}
    (h : SoundWith k w) (hold : w.classes.get? old.id = some old)
    (hnew : w.classes.get? new.id = some new)
    (hreg : w.getRegistered new.config.name = some old.id) (hne : old.id ≠ new.id)
    (hroot : old.startOn = some root) :
    Sat (jobClassConsider x w new.id)
      (fun r => r.2 = true → TookOver w r.1 new (firstMatch x w.sys root.refs))
      (fun _ => True) := by
  have hget : ∀ fn, w.getClass fn new.id = .ok new := fun fn => by rw [World.getClass, hnew]
  unfold jobClassConsider
  rw [hget, sat_bind, sat_ok, sat_bind]
  refine selectFrom_sat.mono (fun best hbest => ?_) fun _ _ => trivial
  cases best with
  | none => trivial
  | some best =>
    simp only [hreg]
    split
    · rename_i heq
      -- the old class is the best one, and this one is not
      intro htrue
      exact absurd (heq.trans (of_decide_eq_true htrue).symm) hne
    · rw [sat_bind]
      have hblock : Sat (jobClassEventBlock x w old.id best)
          (fun w' => best = new.id → (w'.instances old.id).isEmpty = true →
            TookOver w w' new (firstMatch x w.sys root.refs)) (fun _ => True) := by
        by_cases hbest' : best = new.id
        · subst hbest'
          exact (jobClassEventBlock_tookOver h hold hnew hroot).imp fun w' h' _ => h'
        · exact sat_true.imp fun w' _ hb => absurd hb hbest'
      refine hblock.imp fun w₁ h₁ => ?_
      rw [sat_bind]
      have hget : Sat (w₁.getClass .jobClassConsider old.id) _ _ := getClass_sat rfl
      refine hget.mono ?_ fun _ _ => trivial
      rintro oldClass ⟨-, hid⟩
      unfold jobClassRemove
      by_cases hempty : (w₁.instances oldClass.id).isEmpty = true
      · simp only [hempty, if_true]
        rw [sat_bind]
        refine (jobClassAdd_onlyTable _ _).imp fun w₂ h₂ htrue => ?_
        rw [hid] at hempty
        have htook := h₁ (of_decide_eq_true htrue).symm hempty
        exact (htook.onlyTable ⟨_, rfl⟩).onlyTable h₂
      · simp only [hempty, Bool.false_eq_true, if_false]
        rw [sat_bind]
        refine (sat_true (m := World.getClass _ _ _)).imp fun _ _ => ?_
        rw [sat_bind]
        exact (sat_true (m := resetStartOn _ _)).imp fun _ _ hf => absurd hf (by simp)

/-- `job_class_reconsider` changes the table of classes alone. -/
theorem jobClassReconsider_onlyTable (w : World) (c : ClassId) :
    Sat (jobClassReconsider w c) (fun r => OnlyTable w r.1) (fun _ => True) := by
  unfold jobClassReconsider
  rw [sat_bind]
  refine (sat_true (m := w.getClass _ c)).imp fun cls _ => ?_
  rw [sat_bind]
  refine (sat_true (m := confSelectJob w _)).imp fun best _ => ?_
  split
  · split
    · exact ⟨_, rfl⟩
    · unfold jobClassRemove
      split
      · rename_i w₁ hremove
        split at hremove
        · cases hremove
          rw [sat_bind]
          refine (jobClassAdd_onlyTable _ _).imp fun w₂ h₂ => ?_
          exact OnlyTable.trans ⟨_, rfl⟩ h₂
        · cases hremove
      · rename_i w₁ hremove
        split at hremove
        · cases hremove
        · cases hremove
          exact ⟨_, rfl⟩
  · exact ⟨_, rfl⟩

/-! ## Overrides -/

theorem destroyOperator_balance (sys : Sys) (root : Option EventOperator) :
    Sat (destroyOperator sys root)
      (fun sys' => ∀ e, sys'.blockers e + (root.elim [] EventOperator.refs).count e =
        sys.blockers e) (fun _ => True) := by
  have hall : ∀ (es : List EventId) (sys : Sys), Sat (unblockAll sys es)
      (fun sys' => ∀ e, sys'.blockers e + es.count e = sys.blockers e) (fun _ => True) := by
    intro es
    induction es with
    | nil => exact fun sys e => rfl
    | cons e es ih =>
      intro sys
      unfold unblockAll
      rw [List.foldlM_cons, sat_bind]
      refine eventUnblock_sat.mono ?_ fun _ _ => trivial
      rintro sys₁ ⟨-, h₁⟩
      refine (ih sys₁).imp fun sys₂ h₂ e' => ?_
      have h₁' := h₁ e'
      have h₂' := h₂ e'
      rw [count_cons_ite]
      omega
  cases root with
  | none => exact fun e => rfl
  | some root => exact hall root.refs sys

theorem parsed_refs (new : Option Unmatched) :
    (new.map Unmatched.root).elim [] EventOperator.refs = [] := by
  cases new with
  | none => rfl
  | some u => exact u.refs

/-- An override that has a condition of its own takes the place of the old condition,
whose matches are given back. -/
theorem parseJob_override {c : ClassId} {cls : ClassState} {name : String} {parsed : Parsed}
    {fresh : Unmatched} (hget : w.classes.get? c = some cls)
    (hfresh : parsed.startOn = some (some fresh))
    (hstop : cls.stopOn.elim [] EventOperator.refs = []) :
    Sat (parseJob w (some c) name parsed)
      (fun r => (∃ cls', r.1.classes.get? c = some cls' ∧ cls'.startOn = some fresh.root ∧
          cls'.cgmanagerWait = cls.cgmanagerWait) ∧
        ∀ e, r.1.sys.blockers e + (cls.startOn.elim [] EventOperator.refs).count e =
          w.sys.blockers e)
      (fun _ => True) := by
  have hid : cls.id = c := Store.key_of_get? hget
  unfold parseJob World.getClass
  simp only [hget]
  rw [sat_bind, sat_ok, sat_bind]
  unfold parseOn
  rw [hfresh]
  simp only
  rw [sat_bind]
  refine (destroyOperator_balance w.sys cls.startOn).imp fun sys h₁ => ?_
  rw [sat_ok, sat_bind]
  refine Sat.imp (Q := fun r => ∀ e, r.1.blockers e = sys.blockers e) ?_ ?_
  · split
    · exact fun e => rfl
    · rw [sat_bind]
      refine (destroyOperator_balance sys cls.stopOn).imp fun sys₂ h₂ e => ?_
      simpa [hstop] using h₂ e
  rintro ⟨sys₂, stopOn⟩ h₂
  have hput : ∀ cls' : ClassState, cls'.id = cls.id → (w.classes.put cls').get? c = some cls' := by
    intro cls' hid'
    rw [← hid, ← hid']
    exact Store.get?_put_self
  refine ⟨⟨_, hput { cls with
    config := { parsed.config with name := cls.config.name }
    startOn := some fresh.root
    stopOn := stopOn } rfl, rfl, rfl⟩, fun e => ?_⟩
  · show sys₂.blockers e + _ = _
    rw [h₂ e]
    exact h₁ e

/-! ## Progress towards starting -/

/-- Whether a condition is true after some more events. -/
def startsAfter (x : Host) (events : List Event) (startOn : Option EventOperator) : Bool :=
  startOn.any fun root =>
    (events.foldl (fun root event => (eventOperatorHandle x event [] root).1) root).value

/-- The new class has come as far as the old one: every node of its condition has the same
value and every leaf the same event, it waits for the cgroup manager when the old one
does, and so later events start it when they would have started the old one. -/
structure SameProgress (old new : ClassState) : Prop where
  nodes : new.startOn = old.startOn
  waiting : new.cgmanagerWait = old.cgmanagerWait
  later : ∀ x events, startsAfter x events new.startOn = startsAfter x events old.startOn

theorem sameProgress_iff {old new : ClassState} :
    SameProgress old new ↔ new.startOn = old.startOn ∧ new.cgmanagerWait = old.cgmanagerWait :=
  ⟨fun h => ⟨h.nodes, h.waiting⟩, fun h => ⟨h.1, h.2, fun x events => by rw [h.1]⟩⟩

/-- The new class has come as far as the old one, whose blocks it holds as well until the
old one is freed. -/
structure KeepsProgress (w w' : World) (old : ClassState) (new : ClassId) : Prop where
  same : ∃ cls, w'.classes.get? new = some cls ∧ SameProgress old cls
  blockers : ∀ e, w'.sys.blockers e =
    w.sys.blockers e + (old.startOn.elim [] EventOperator.refs).count e

theorem keepsProgress_iff {old cls : ClassState} {new : ClassId}
    (hget : w'.classes.get? new = some cls)
    (hb : ∀ e, w'.sys.blockers e =
      w.sys.blockers e + (cls.startOn.elim [] EventOperator.refs).count e) :
    KeepsProgress w w' old new ↔
      cls.startOn = old.startOn ∧ cls.cgmanagerWait = old.cgmanagerWait := by
  constructor
  · rintro ⟨⟨cls', hget', hsame⟩, -⟩
    rw [hget] at hget'
    cases hget'
    exact sameProgress_iff.mp hsame
  · intro h
    refine ⟨⟨cls, hget, sameProgress_iff.mpr h⟩, fun e => ?_⟩
    rw [hb e, h.1]

section Replaced

variable {old : ClassState} {root : EventOperator}

theorem tookOver_withParsed {source : Nat} {path : String} {parsed : Parsed}
    (hs : SoundWith k w) (hold : w.classes.get? old.id = some old)
    (hreg : w.getRegistered old.config.name = some old.id) (hroot : old.startOn = some root)
    (hok : parsed.ok = true)
    (hrun : jobClassConsider x (w.withParsed source path old.config.name parsed)
      (w.lastClass + 1) = .ok (w', true)) :
    TookOver w w' (parsedClass (w.lastClass + 1) old.config.name parsed)
      (firstMatch x w.sys root.refs) := by
  have hle : old.id ≤ w.lastClass := hs.classIds old (Store.mem_of_get? hold)
  have hne : old.id ≠ w.lastClass + 1 := Nat.ne_of_lt (Nat.lt_succ_of_le hle)
  have hold' : (w.withParsed source path old.config.name parsed).classes.get? old.id = some old :=
    (Store.get?_put_ne hne).trans hold
  let new := parsedClass (w.lastClass + 1) old.config.name parsed
  have hnew : (w.withParsed source path old.config.name parsed).classes.get? new.id = some new :=
    Store.get?_put_self
  have hfresh : old.id ≠ new.id := hne
  have htook := (jobClassConsider_tookOver (x := x) (hs.withParsed source path old.config.name hok)
    hold' hnew hreg hfresh hroot).of_ok hrun rfl
  exact ⟨htook.get, htook.balance⟩

/-- A class that is replaced keeps its progress

* through `job_class_consider` exactly when no inner node of its condition is true, every
  leaf of it has the first of its events that matches it, and it does not wait for the
  cgroup manager;
* through `job_class_reconsider` exactly when the condition of the class that is installed,
  which has been read before, is in the same state and has no event;
* when the condition comes from an override, exactly when it has none. -/
theorem replaced_keepsProgress {C : Host → World → WorldInput → Prop} (h : WorldReached C w)
    (hold : w.classes.get? old.id = some old)
    (hreg : w.getRegistered old.config.name = some old.id) (hroot : old.startOn = some root) :
    (∀ x source path parsed (fresh : Unmatched) w', parsed.ok = true →
      parsed.startOn = some (some fresh) → fresh.root = eventOperatorReset root →
      jobClassConsider x (w.withParsed source path old.config.name parsed) (w.lastClass + 1) =
        .ok (w', true) →
      (KeepsProgress w w' old (w.lastClass + 1) ↔
        root.CarriedOver (firstMatch x w.sys root.refs) ∧ old.cgmanagerWait = false)) ∧
    (∀ jobs files (new : ClassState) root' w', w.classes.get? new.id = some new →
      new.startOn = some root' → eventOperatorReset root' = eventOperatorReset root →
      jobClassReconsider { w with jobs := jobs, files := files } old.id = .ok (w', true) →
      (KeepsProgress w w' old new.id ↔
        root' = root ∧ root.refs = [] ∧ new.cgmanagerWait = old.cgmanagerWait)) ∧
    (∀ x source path parsed override (fresh : Unmatched) w₁ w' job, parsed.ok = true →
      jobClassConsider x (w.withParsed source path old.config.name parsed) (w.lastClass + 1) =
        .ok (w₁, true) →
      override.startOn = some (some fresh) → fresh.root = eventOperatorReset root →
      parseJob w₁ (some (w.lastClass + 1)) old.config.name override = .ok (w', job) →
      (KeepsProgress w w' old (w.lastClass + 1) ↔
        root = eventOperatorReset root ∧ old.cgmanagerWait = false)) := by
  obtain ⟨leak, hs⟩ := reached_worldSound h
  have hlinked := (hs.accounts.linked old (Store.mem_of_get? hold)).1 root hroot
  refine ⟨?_, ?_, ?_⟩
  · intro x source path parsed fresh w' hok hparsed hfresh hrun
    have htook := tookOver_withParsed hs hold hreg hroot hok hrun
    have hnew : (parsedClass (w.lastClass + 1) old.config.name parsed).startOn =
        some (eventOperatorReset root) := by
      rw [← hfresh, parsedClass, hparsed]
      rfl
    refine (keepsProgress_iff htook.get fun e => ?_).trans ?_
    · have hb := htook.balance e
      rw [hnew, Option.elim_some, EventOperator.refs_reset, List.count_nil] at hb
      exact hb
    · rw [ClassState.takingOver, hnew, hroot, Option.map_some, Option.some.injEq,
        EventOperator.takeOver_reset_eq_iff hlinked]
      exact and_congr_right' eq_comm
  · intro jobs files new root' w' hnew hstart _ hrun
    obtain ⟨hnew', hsys⟩ : w'.classes.get? new.id = some new ∧ w'.sys = w.sys := by
      obtain ⟨registered, rfl⟩ := (jobClassReconsider_onlyTable _ _).of_ok hrun
      exact ⟨hnew, rfl⟩
    constructor
    · rintro ⟨⟨cls, hget, hsame⟩, hblockers⟩
      rw [hnew'] at hget
      cases hget
      obtain ⟨hroots, hwait⟩ := sameProgress_iff.mp hsame
      rw [hstart, hroot] at hroots
      refine ⟨Option.some.inj hroots, List.eq_nil_iff_forall_not_mem.mpr fun e he => ?_, hwait⟩
      have hb := hblockers e
      rw [hsys, hroot, Option.elim_some] at hb
      have hpos := List.count_pos_iff.mpr he
      omega
    · rintro ⟨rfl, hnone, hwait⟩
      refine ⟨⟨new, hnew', sameProgress_iff.mpr ⟨hstart.trans hroot.symm, hwait⟩⟩, fun e => ?_⟩
      rw [hsys, hroot, Option.elim_some, hnone, List.count_nil, Nat.add_zero]
  · intro x source path parsed override fresh w₁ w' job hok hrun hparsed hfresh hover
    have htook := tookOver_withParsed hs hold hreg hroot hok hrun
    obtain ⟨⟨cls, hget, hstart, hwait⟩, hb⟩ :=
      (parseJob_override htook.get hparsed (parsed_refs _)).of_ok hover
    refine (keepsProgress_iff hget fun e => ?_).trans ?_
    · have h₁ := htook.balance e
      have h₂ : w'.sys.blockers e + _ = w₁.sys.blockers e := hb e
      rw [show (parsedClass (w.lastClass + 1) old.config.name parsed).startOn.elim []
        EventOperator.refs = [] from parsed_refs _, List.count_nil] at h₁
      rw [hstart, Option.elim_some, fresh.refs, List.count_nil]
      show w'.sys.blockers e = w.sys.blockers e
      omega
    · rw [hstart, hwait, hroot, hfresh, Option.some.injEq]
      exact and_congr eq_comm eq_comm

end Replaced

/-- One of two events has come when the file is read again. -/
theorem replaced_keepsProgress_half :
    ∃ w w' old, WorldReached Anything w ∧ old.startOn = some (.eventAnd false
        (.eventMatch "e" [] true (some 1)) (.eventMatch "f" [] false none)) ∧
      jobClassConsider plainHost (w.withParsed 1 "/two/a.conf" "a" bothParsed) 2 =
        .ok (w', true) ∧ KeepsProgress w w' old 2 := by
  have h₁ := (reached_newWorld Anything).next
    (.load 1 "/two/a.conf" (some bothParsed) none) ⟨trivial, trivial⟩ rfl
  have h₂ := h₁.next (.emit none "e" [] rfl false (-1)) ⟨trivial, trivial⟩ rfl
  have h₃ := h₂.next (.poll 1 listOrder) ⟨trivial, trivial⟩ rfl
  exact ⟨_, _, _, h₃, rfl, rfl, ((@replaced_keepsProgress _ ⟨1, _, _, _, _, _⟩ _ _ h₃ rfl rfl
    rfl).1 plainHost 1 "/two/a.conf" bothParsed onBoth _ rfl rfl rfl rfl).mpr
      ⟨⟨rfl, rfl, rfl⟩, rfl⟩⟩

/-- A condition on one of two events and a third one. -/
def onEither : Unmatched :=
  ⟨.eventAnd false (.eventOr false (.eventMatch "e" [] false none) (.eventMatch "f" [] false none))
    (.eventMatch "g" [] false none), rfl⟩

/-- A file whose class starts on that condition. -/
def eitherParsed : Parsed where
  ok := true
  config := plainClass [.main]
  startOn := some (some onEither)

/-- The inner node that has become true is false in the new class. -/
theorem either_loses_progress :
    ∃ w w' old, WorldReached Anything w ∧ w.classes.get? 1 = some old ∧
      w.getRegistered "a" = some 1 ∧ old.startOn.map eventOperatorReset = some onEither.root ∧
      jobClassConsider plainHost (w.withParsed 1 "/two/a.conf" "a" eitherParsed) 2 =
        .ok (w', true) ∧ ¬ KeepsProgress w w' old 2 := by
  have h₁ := (reached_newWorld Anything).next
    (.load 1 "/two/a.conf" (some eitherParsed) none) ⟨trivial, trivial⟩ rfl
  have h₂ := h₁.next (.emit none "e" [] rfl false (-1)) ⟨trivial, trivial⟩ rfl
  have h₃ := h₂.next (.poll 1 listOrder) ⟨trivial, trivial⟩ rfl
  refine ⟨_, _, _, h₃, rfl, rfl, rfl, rfl, ?_⟩
  rintro ⟨⟨cls, hget, hsame⟩, -⟩
  cases hget
  cases hsame.nodes

end Startup
