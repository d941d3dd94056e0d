import Startup.Job.Offers
import Startup.World.Runs
import Startup.World.WaitingRuns

/-!
# What the handling of a pending event does

`event_pending_handle_jobs` goes through two tables while jobs change state, events are
added to the queue and conditions are reset.  Nothing of this is seen by the classes and
instances that the loop has not come to yet: what it offers the event to, which jobs it
stops and of which classes it starts an instance is a function of the state before
(`World.heard`, `World.offersTo`), and so are the conditions that it leaves
(`ClassState.afterOffer`).  The loop ends with the first class of which no instance can
be named, `World.unnamed`.
-/

namespace Startup

open Lib

variable {k : Slack} {x : Host} {w w' w'' : World} {c : ClassId} {event : Event}

/-! ## What an event does to a class -/

namespace ClassState

/-- The condition that an event is offered to: the matches from before the cgroup
manager was there are given up, and without the manager a class that waits is left out. -/
def offeredRoot (x : Host) (cls : ClassState) : Option EventOperator :=
  match cls.startOn with
  | none => none
  | some root =>
    if !cls.config.cgroups || !cls.cgmanagerWait then some root
    else if x.cgroupManagerAvailable then some (eventOperatorReset root)
    else none

/-- An instance of the class may be started now. -/
def mayStart (x : Host) (cls : ClassState) : Bool :=
  !cls.config.cgroups || x.cgroupManagerAvailable

/-- The event makes init start an instance of the class. -/
def startsFor (x : Host) (event : Event) (cls : ClassState) : Bool :=
  cls.mayStart x && (cls.offeredRoot x).any (·.completes x event [])

/-- The offers that an event makes to a class, in order. -/
def offers (x : Host) (event : Event) (cls : ClassState) : List Action :=
  match cls.offeredRoot x with
  | none => []
  | some _ =>
    .offeredStart event.id cls.id ::
      if cls.startsFor x event then [.startedFor event.id cls.id] else []

/-- The class when the loop has come to it. -/
def afterOffer (x : Host) (event : Event) (cls : ClassState) : ClassState :=
  match cls.offeredRoot x with
  | none => cls
  | some root =>
    let (handled, matched) := eventOperatorHandle x event [] root
    { cls with
      startOn := some (if cls.startsFor x event then eventOperatorReset handled else handled)
      cgmanagerWait :=
        if !cls.config.cgroups then cls.cgmanagerWait
        else !x.cgroupManagerAvailable && matched != 0 }

/-- The instance that the class would be started with can be named, or its variables
cannot be collected. -/
def named (x : Host) (w : World) (cls : ClassState) (root : EventOperator) : Bool :=
  match eventOperatorEnvironment x w.sys root (jobClassEnvironment x w cls) "UPSTART_EVENTS" with
  | .error _ => true
  | .ok env =>
    match environExpand cls.config.instancePattern env with
    | .error _ => false
    | .ok _ => true

end ClassState

namespace World

/-- The event makes the condition of the class true, and no instance can be named. -/
def unnamed (x : Host) (w : World) (event : Event) (c : ClassId) : Bool :=
  match w.classes.get? c with
  | none => false
  | some cls =>
    cls.startsFor x event &&
      (cls.offeredRoot x).any fun root => !cls.named x w (eventOperatorHandle x event [] root).1

/-- The classes that the loop comes to, of those in `cs`. -/
def heard (x : Host) (w : World) (event : Event) : List ClassId → List ClassId
  | [] => []
  | c :: cs => if w.unnamed x event c then [c] else c :: w.heard x event cs

/-- An instance of a class. -/
def instance? (w : World) (c : ClassId) (id : JobId) : Option Job :=
  (w.instances c).find? fun job => job.id = id

/-- The offers that an event makes to the instances of a class and to the class, in order. -/
def offersTo (x : Host) (o : HashOrder) (w : World) (event : Event) (c : ClassId) : List Action :=
  (o.order ((w.instances c).map Job.id)).flatMap
      (fun id => (w.instance? c id).elim [] (Job.offers x event)) ++
    (w.classes.get? c).elim [] (ClassState.offers x event)

end World

/-! ## What is left alone -/

/-- Only the class `c` and its instances have changed. -/
structure OnlyClass (c : ClassId) (w w' : World) : Prop where
  classes : ∀ c' ≠ c, w'.classes.get? c' = w.classes.get? c'
  instances : ∀ c' ≠ c, w'.instances c' = w.instances c'
  jobEnviron : w'.jobEnviron = w.jobEnviron

namespace OnlyClass

theorem refl (w : World) : OnlyClass c w w := ⟨fun _ _ => rfl, fun _ _ => rfl, rfl⟩

theorem trans (h : OnlyClass c w w') (h' : OnlyClass c w' w'') : OnlyClass c w w'' :=
  ⟨fun c' hc => (h'.classes c' hc).trans (h.classes c' hc),
    fun c' hc => (h'.instances c' hc).trans (h.instances c' hc), h'.jobEnviron.trans h.jobEnviron⟩

theorem putClass {cls : ClassState} (sys : Sys) (hid : cls.id = c) :
    OnlyClass c w ((w.setSys sys).putClass cls) := by
  subst hid
  exact ⟨fun c' hc => Store.get?_put_ne hc, fun _ _ => rfl, rfl⟩

end OnlyClass

/-- A job of another class is written. -/
theorem instances_putJob_ne {job : Job} {c' : ClassId} (sys : Sys) (hnew : job.classId ≠ c')
    (hold : ∀ old, w.jobs.get? job.id = some old → old.classId ≠ c') :
    ((w.setSys sys).putJob job).instances c' = w.instances c' := by
  show (w.jobs.put job).items.filter _ = w.jobs.items.filter _
  unfold Store.put
  split
  · show (Store.replace job w.jobs.items).filter _ = _
    have hitems : ∀ j ∈ w.jobs.items, j.id = job.id → j.classId ≠ c' := by
      intro j hj hid
      exact hold j (hid ▸ Store.get?_of_mem hj)
    generalize w.jobs.items = items at hitems
    induction items with
    | nil => rfl
    | cons j items ih =>
      have hrest := ih fun j' hj' => hitems j' (List.mem_cons_of_mem j hj')
      have hcons : Store.replace job (j :: items) =
          (if key j = key job then job else j) :: Store.replace job items := rfl
      rw [hcons]
      split
      · rename_i hkey
        have hj := hitems j List.mem_cons_self hkey
        rw [List.filter_cons_of_neg (by simpa using hnew), List.filter_cons_of_neg (by simpa using hj)]
        exact hrest
      · rw [List.filter_cons, List.filter_cons, hrest]
  · show (w.jobs.items ++ [job]).filter _ = _
    rw [List.filter_append, List.filter_cons_of_neg (by simpa using hnew), List.filter_nil,
      List.append_nil]

theorem instance?_eq_some {id : JobId} {job : Job} :
    w.instance? c id = some job ↔ w.jobs.get? id = some job ∧ job.classId = c := by
  unfold World.instance? World.instances
  constructor
  · intro h
    have hmem := List.mem_filter.mp (List.mem_of_find?_eq_some h)
    have hid : job.id = id := by simpa using List.find?_some h
    exact ⟨hid ▸ Store.get?_of_mem hmem.1, by simpa using hmem.2⟩
  · rintro ⟨hget, hclass⟩
    have hmem : job ∈ w.jobs.items.filter fun job => job.classId = c :=
      List.mem_filter.mpr ⟨Store.mem_of_get? hget, by simpa using hclass⟩
    have hid : job.id = id := Store.key_of_get? hget
    obtain ⟨job', hfind⟩ := Option.isSome_iff_exists.mp
      (List.find?_isSome (p := fun job => decide (job.id = id)).mpr ⟨job, hmem, by simpa using hid⟩)
    have hmem' := List.mem_filter.mp (List.mem_of_find?_eq_some hfind)
    have hid' : job'.id = id := by simpa using List.find?_some hfind
    have hget' : w.jobs.get? id = some job' := hid' ▸ Store.get?_of_mem hmem'.1
    rw [hfind, ← hget', hget]

theorem instance?_putJob_ne {job : Job} {id : JobId} (sys : Sys) (hne : id ≠ job.id) :
    ((w.setSys sys).putJob job).instance? c id = w.instance? c id := by
  refine Option.ext fun j => ?_
  rw [instance?_eq_some, instance?_eq_some]
  show (w.jobs.put job).get? id = some j ∧ _ ↔ _
  rw [Store.get?_put_ne (show id ≠ key job from hne)]

/-! ## The instances of a class -/

theorem withJob_live {fn : SourceFn} {id : JobId} {f : Sys → Job → Except Fault (Sys × JobRef)}
    {job : Job} {P : Sys → Job → Prop} (hget : w.jobs.get? id = some job)
    (hf : Sat (f w.sys job) (fun r => r.2.Live (P r.1)) (fun _ => True)) :
    Sat (withJob w fn id f) (fun w' => ∃ sys job', w' = (w.setSys sys).putJob job' ∧ P sys job')
      (fun _ => True) := by
  unfold withJob
  rw [hget]
  dsimp only
  rw [sat_bind]
  refine hf.imp ?_
  rintro ⟨sys, job' | job'⟩ h
  · exact ⟨sys, job', rfl, h⟩
  · exact h.elim

/-- The event is offered to one instance. -/
theorem handleInstance_offers {id : JobId} {job : Job} (h : SoundWith k w)
    (he : (w.sys.event? event.id).isSome = true) (hjob : w.instance? c id = some job) :
    Sat (withJob w .eventPending id fun sys job => handleStopOn x sys job event)
      (fun w' => w'.sys.offers = (job.offers x event).reverse ++ w.sys.offers ∧
        OnlyClass c w w' ∧ ∀ id' ≠ id, w'.instance? c id' = w.instance? c id')
      (fun _ => True) := by
  obtain ⟨hget, hclass⟩ := instance?_eq_some.mp hjob
  have hid : job.id = id := Store.key_of_get? hget
  have hframe := handleStopOn_frame (x := x) (h.accounts.owned (Store.mem_of_get? hget)) he
  have hlive : Sat (handleStopOn x w.sys job event) (fun r => r.2.Live fun _ => True)
      (fun _ => True) := handleStopOn_live
  have hcall := ((handleStopOn_offers x w.sys job event).and hframe).and hlive
  refine (withJob_live (P := fun sys job' =>
    sys.offers = (job.offers x event).reverse ++ w.sys.offers ∧ job'.id = job.id ∧
      job'.classId = job.classId) hget (hcall.mono ?_ fun _ _ => trivial)).imp ?_
  · rintro ⟨sys, job' | job'⟩ ⟨⟨hoffers, hframe⟩, hlive⟩
    · exact ⟨hoffers, hframe.ident, hframe.classId⟩
    · exact hlive.elim
  · rintro _ ⟨sys, job', rfl, hoffers, hid', hclass'⟩
    have hc : job'.classId = c := hclass'.trans hclass
    have hkey : job'.id = id := hid'.trans hid
    refine ⟨hoffers, ⟨fun _ _ => rfl, fun c' hc' => ?_, rfl⟩, fun id' hne => ?_⟩
    · refine instances_putJob_ne sys (hc ▸ hc'.symm) fun old hold => ?_
      rw [hkey, hget] at hold
      cases hold
      exact hclass ▸ hc'.symm
    · exact instance?_putJob_ne sys (hkey ▸ hne)

/-- The event is offered to the instances of a class, in order. -/
theorem handleInstances_offers {ids : List JobId} (h : SoundWith k w)
    (he : (w.sys.event? event.id).isSome = true) (hnodup : ids.Nodup)
    (hids : ∀ id ∈ ids, w.instance? c id ≠ none) :
    Sat (handleInstances x event w ids)
      (fun w' => w'.sys.offers =
          (ids.flatMap fun id => (w.instance? c id).elim [] (Job.offers x event)).reverse ++
            w.sys.offers ∧ OnlyClass c w w')
      (fun _ => True) := by
  unfold handleInstances
  induction ids generalizing w with
  | nil => exact ⟨rfl, .refl w⟩
  | cons id ids ih =>
    obtain ⟨hid, hnodup⟩ := List.nodup_cons.mp hnodup
    obtain ⟨job, hjob⟩ := Option.ne_none_iff_exists'.mp (hids id List.mem_cons_self)
    rw [List.foldlM_cons, sat_bind]
    have hholds : Sat (handleInstances x event w [id]) (fun w' => Goes k w w' ∧ SameClasses w w')
        (fun f => f.ofQueue = false) := handleInstances_holds h he
    unfold handleInstances at hholds
    rw [List.foldlM_cons, sat_bind] at hholds
    refine ((handleInstance_offers h he hjob).and hholds).mono ?_ fun _ _ => trivial
    rintro w₁ ⟨⟨hoffers₁, honly₁, hother₁⟩, hgoes₁, -⟩
    obtain ⟨new, hext, -⟩ := hgoes₁.queue
    have hne : ∀ id' ∈ ids, id' ≠ id := fun id' hid' heq => hid (heq ▸ hid')
    refine (ih hgoes₁.sound (hext.event?_isSome he) hnodup fun id' hid' => ?_).imp ?_
    · rw [hother₁ id' (hne id' hid')]
      exact hids id' (List.mem_cons_of_mem id hid')
    · rintro w₂ ⟨hoffers₂, honly₂⟩
      refine ⟨?_, honly₁.trans honly₂⟩
      have hrest : (ids.flatMap fun id => (w₁.instance? c id).elim [] (Job.offers x event)) =
          ids.flatMap fun id => (w.instance? c id).elim [] (Job.offers x event) :=
        List.flatMap_congr fun id' hid' => by rw [hother₁ id' (hne id' hid')]
      rw [hoffers₂, hoffers₁, hrest, List.flatMap_cons, hjob, List.reverse_append,
        List.append_assoc]
      rfl

/-! ## The variables that name an instance -/

/-- What a condition collects from an event. -/
def Event.label (ev : Event) : String × List String := (ev.name, ev.env)

theorem filteredEvents_label {fn : SourceFn} {sys sys' : Sys} {root : EventOperator}
    (h : ∀ e, some e ∈ root.filtered →
      (sys'.event? e).map Event.label = (sys.event? e).map Event.label) :
    (filteredEvents fn sys' root).map (List.map Event.label) =
      (filteredEvents fn sys root).map (List.map Event.label) := by
  unfold filteredEvents
  generalize root.filtered = refs at h
  induction refs with
  | nil => rfl
  | cons ref refs ih =>
    have hrest := ih fun e he => h e (List.mem_cons_of_mem ref he)
    rw [List.mapM_cons, List.mapM_cons]
    cases ref with
    | none => rfl
    | some e =>
      have hlabel := h e List.mem_cons_self
      cases hev : sys.event? e with
      | none =>
        rw [hev, Option.map_none, Option.map_eq_none_iff] at hlabel
        simp only [hev, hlabel]
        rfl
      | some ev =>
        rw [hev] at hlabel
        obtain ⟨ev', hev', heq⟩ := Option.map_eq_some_iff.mp hlabel
        -- both lists begin with an event of the same label
        have hcons : ∀ (ev : Event) (rest : Except Fault (List Event)),
            (rest >>= fun evs => .ok (ev :: evs)).map (List.map Event.label) =
              (rest.map (List.map Event.label)).map (ev.label :: ·) := by
          intro ev rest
          cases rest <;> rfl
        simp only [hev, hev']
        exact (hcons ev' _).trans ((congrArg₂ (fun l => Except.map (l :: ·)) heq hrest).trans
          (hcons ev _).symm)

/-- The variables depend on the names and the variables of the events alone. -/
theorem eventOperatorEnvironment_congr {sys sys' : Sys} {root : EventOperator}
    {env : List String} {key : String} (h : ∀ e, some e ∈ root.filtered →
      (sys'.event? e).map Event.label = (sys.event? e).map Event.label) :
    eventOperatorEnvironment x sys' root env key = eventOperatorEnvironment x sys root env key := by
  have hread : ∀ sys, eventOperatorEnvironment x sys root env key =
      ((filteredEvents .eventOperatorEnvironment sys root).map (List.map Event.label)).map
        fun labels => environAdd x.getenv
          (labels.foldl (fun env l => environAppend x.getenv env true l.2) env) true
          (labels.foldl (fun evlist l =>
            if evlist.toList.getLast? = some '=' then evlist ++ l.1 else evlist ++ " " ++ l.1)
            (key ++ "=")) := by
    intro sys
    unfold eventOperatorEnvironment
    cases filteredEvents .eventOperatorEnvironment sys root with
    | error f => rfl
    | ok events =>
      simp only [Except.map, List.foldl_map]
      rfl
  rw [hread, hread, filteredEvents_label h]

/-- An event of the queue keeps its name and its variables while the queue grows. -/
theorem Extends.label {sys sys' : Sys} {new : List Event} (h : Extends sys sys' new) {e : EventId}
    (he : (sys.event? e).isSome = true) :
    (sys'.event? e).map Event.label = (sys.event? e).map Event.label := by
  have hlabel := congrArg (Option.map Event.label) (h.event_bare he)
  rw [Option.map_map, Option.map_map] at hlabel
  exact hlabel

/-- The events that a condition has are in the queue when it has been handled. -/
theorem Grounded.handle {sys : Sys} {root : EventOperator} (h : Grounded sys root)
    (he : (sys.event? event.id).isSome = true) :
    Grounded sys (eventOperatorHandle x event [] root).1 := by
  refine ⟨h.linked.handle x event [], fun e hmem => ?_⟩
  by_cases heq : e = event.id
  · exact heq ▸ he
  · have hcount := EventOperator.count_refs_handle x event [] h.linked e
    rw [if_neg heq, Nat.add_zero] at hcount
    exact h.queued e (List.count_pos_iff.mp (hcount ▸ List.count_pos_iff.mpr hmem))

theorem SoundWith.grounded_offered {cls : ClassState} {root : EventOperator} (h : SoundWith k w)
    (hget : w.classes.get? c = some cls) (hroot : cls.offeredRoot x = some root) :
    Grounded w.sys root := by
  unfold ClassState.offeredRoot at hroot
  split at hroot
  · cases hroot
  · rename_i root₀ hstart
    split at hroot
    · cases hroot
      exact h.accounts.grounded (Store.mem_of_get? hget) hstart
    · split at hroot
      · cases hroot
        exact ⟨EventOperator.linked_reset root₀, by simp⟩
      · cases hroot

theorem ClassState.named_congr (cls : ClassState) {root : EventOperator}
    (hg : Grounded w.sys root) (hext : ∀ e, (w.sys.event? e).isSome = true →
      (w'.sys.event? e).map Event.label = (w.sys.event? e).map Event.label)
    (henv : w'.jobEnviron = w.jobEnviron) : cls.named x w' root = cls.named x w root := by
  unfold ClassState.named jobClassEnvironment
  rw [henv, eventOperatorEnvironment_congr fun e he => ?_]
  obtain ⟨e', he', heq⟩ := hg.linked.mem_filtered he
  cases heq
  exact hext e (hg.queued e he')

/-! ## The class -/

theorem resetStartOn_offers (cls : ClassState) {root : EventOperator}
    (hroot : cls.startOn = some root) :
    Sat (resetStartOn w cls)
      (fun w' => w'.sys.offers = w.sys.offers ∧ OnlyClass cls.id w w' ∧
        w'.classes.get? cls.id = some { cls with startOn := some (eventOperatorReset root) })
      (fun _ => True) := by
  unfold resetStartOn resetOperator
  rw [hroot]
  dsimp only
  rw [sat_bind, sat_bind]
  exact (unblockAll_touches w.sys _).imp fun sys h =>
    ⟨h.offers, .putClass sys rfl, Store.get?_put_self⟩

theorem findOrNew_offers {cls : ClassState} {name : String} (hids : ∀ job ∈ w.jobs.items,
    job.id ≤ w.lastJob) :
    Sat (findOrNew w cls name)
      (fun r => r.1.sys.offers = w.sys.offers ∧ OnlyClass cls.id w r.1 ∧ r.1.classes = w.classes ∧
        r.2.classId = cls.id)
      (fun _ => True) := by
  have hnew : ∀ (sys : Sys) stopOn, Touches w.sys sys →
      OnlyClass cls.id w { (w.setSys sys).putJob
        (jobNew (w.lastJob + 1) cls.id cls.config name stopOn) with lastJob := w.lastJob + 1 } := by
    intro sys stopOn _
    refine ⟨fun _ _ => rfl, fun c' hc' => ?_, rfl⟩
    refine instances_putJob_ne sys (show cls.id ≠ c' from hc'.symm) fun old hold => ?_
    have hle := hids old (Store.mem_of_get? hold)
    rw [show old.id = w.lastJob + 1 from Store.key_of_get? hold] at hle
    exact absurd hle (Nat.not_succ_le_self _)
  unfold findOrNew
  split
  · rename_i job hfind
    have hmem := List.mem_filter.mp (List.mem_of_find?_eq_some hfind)
    exact ⟨rfl, .refl w, rfl, by simpa using hmem.2⟩
  · unfold jobNewInstance
    cases cls.stopOn with
    | none => exact ⟨rfl, hnew w.sys none (.refl _), rfl, rfl⟩
    | some root =>
      show Sat (copyOperator w.sys root >>= _) _ _
      rw [sat_bind]
      exact copyOperator_touches.imp fun r h => ⟨h.offers, hnew r.1 (some r.2) h, rfl, rfl⟩

/-- The class of which an instance is started makes no offers. -/
theorem jobClassInductJob_offers {cls : ClassState} {root : EventOperator} (h : SoundWith k w)
    (htable : InTable w c) (hget : w.classes.get? c = some cls) (hroot : cls.startOn = some root) :
    Sat (jobClassInductJob x w c)
      (fun r => r.1.sys.offers = w.sys.offers ∧ OnlyClass c w r.1 ∧
        r.1.classes.get? c = some { cls with startOn := some (eventOperatorReset root) } ∧
        r.2 = cls.named x w root)
      (fun _ => True) := by
  have hid : cls.id = c := Store.key_of_get? hget
  subst hid
  have hreg : w.getRegistered cls.config.name = some cls.id := by
    obtain ⟨cls', hget', hreg⟩ := htable
    rw [hget] at hget'
    cases hget'
    exact hreg
  have hg := h.accounts.grounded (Store.mem_of_get? hget) hroot
  unfold jobClassInductJob World.getClass ClassState.named
  simp only [hget]
  rw [sat_bind, sat_ok, hroot]
  dsimp only
  rw [sat_bind]
  cases hname : eventOperatorEnvironment x w.sys root (jobClassEnvironment x w cls)
    "UPSTART_EVENTS" with
  | error f => trivial
  | ok env =>
    rw [sat_ok]
    dsimp only
    cases environExpand cls.config.instancePattern env with
    | error e =>
      dsimp only
      rw [sat_bind]
      exact (resetStartOn_offers _ hroot).imp fun w' h' => ⟨h'.1, h'.2.1, h'.2.2, rfl⟩
    | ok name =>
      dsimp only
      rw [sat_bind]
      refine ((findOrNew_sat h hget hreg).and (findOrNew_offers h.jobIds)).mono ?_
        fun _ _ => trivial
      rintro ⟨w₁, job⟩ ⟨⟨hgoes₁, -, hjob⟩, hoffers₁, honly₁, hclasses₁, hclass₁⟩
      dsimp only at hgoes₁ hjob hoffers₁ honly₁ hclasses₁ hclass₁ ⊢
      obtain ⟨new, hext, -⟩ := hgoes₁.queue
      have hmem := Store.mem_of_get? hjob
      have hframe : Framed w₁.sys job (inductInstance x w₁.sys job root env) :=
        inductInstance_frame (hgoes₁.sound.accounts.owned hmem) (hg.mono hext)
      have hlive : Sat (inductInstance x w₁.sys job root env) (fun r => r.2.Live fun _ => True)
          (fun _ => True) := inductInstance_live
      have hcall := ((inductInstance_noOffer (x := x) w₁.sys job root env).and hframe).and hlive
      rw [sat_bind]
      refine (withJob_live (P := fun sys job' => sys.offers = w₁.sys.offers ∧
        job'.id = job.id ∧ job'.classId = job.classId) hjob
        (hcall.mono ?_ fun _ _ => trivial)).imp ?_
      · rintro ⟨sys, job' | job'⟩ ⟨⟨hoffers, hframe⟩, hlive⟩
        · exact ⟨hoffers, hframe.ident, hframe.classId⟩
        · exact hlive.elim
      · rintro _ ⟨sys, job', rfl, hoffers₂, hid₂, hclass₂⟩
        have honly₂ : OnlyClass cls.id w₁ ((w₁.setSys sys).putJob job') := by
          have hc : job'.classId = cls.id := hclass₂.trans hclass₁
          refine ⟨fun _ _ => rfl, fun c' hc' => ?_, rfl⟩
          refine instances_putJob_ne sys (hc ▸ hc'.symm) fun old hold => ?_
          rw [hid₂, hjob] at hold
          cases hold
          exact hclass₁ ▸ hc'.symm
        have hget₂ : ((w₁.setSys sys).putJob job').classes.get? cls.id = some cls :=
          (congrArg (Store.get? · cls.id) hclasses₁).trans hget
        rw [hget₂, sat_bind, sat_ok, sat_bind]
        refine (resetStartOn_offers _ hroot).imp fun w₃ h₃ => ?_
        exact ⟨h₃.1.trans (hoffers₂.trans hoffers₁), (honly₁.trans honly₂).trans h₃.2.1,
          h₃.2.2, rfl⟩

/-- The event is offered to a class, whose condition is `root`. -/
theorem offerStartOn_offers {old cls : ClassState} {root : EventOperator} (h : SoundWith k w)
    (hget : w.classes.get? cls.id = some old) (hstart : old.startOn = some root)
    (hstop : cls.stopOn = old.stopOn) (hname : cls.config.name = old.config.name)
    (htable : InTable w cls.id) (he : (w.sys.event? event.id).isSome = true) :
    Sat (offerStartOn x w cls root event)
      (fun r => r.1.sys.offers = (.offeredStart event.id cls.id ::
          if root.completes x event [] then [.startedFor event.id cls.id] else []).reverse ++
            w.sys.offers ∧
        OnlyClass cls.id w r.1 ∧
        r.1.classes.get? cls.id = some { cls with
          startOn := some (if root.completes x event []
            then eventOperatorReset (eventOperatorHandle x event [] root).1
            else (eventOperatorHandle x event [] root).1) } ∧
        r.2 = (!root.completes x event [] ||
          cls.named x w (eventOperatorHandle x event [] root).1))
      (fun _ => True) := by
  have hgrounded := h.accounts.grounded (Store.mem_of_get? hget) hstart
  have hhandled := hgrounded.handle (x := x) he
  unfold offerStartOn
  rw [sat_bind]
  refine ((handleOperator_sat hgrounded.linked he).and
    (handleOperator_tree x w.sys root event)).mono ?_ fun _ _ => trivial
  rintro ⟨sys, root', matched⟩ ⟨hr, hroot', hmatched⟩
  dsimp only at hroot' hmatched
  subst hroot' hmatched
  have htouch : Touches w.sys sys := hr.1
  have hoffered : (sys.act (.offeredStart event.id cls.id)).offers =
      .offeredStart event.id cls.id :: w.sys.offers :=
    (Sys.offers_offer sys (a := .offeredStart event.id cls.id) rfl).trans
      (congrArg (Action.offeredStart event.id cls.id :: ·) htouch.offers)
  have honly : OnlyClass cls.id w ((w.setSys (sys.act (.offeredStart event.id cls.id))).putClass
      { cls with startOn := some (eventOperatorHandle x event [] root).1 }) := .putClass _ rfl
  show Sat (if root.completes x event [] then _ else _) _ _
  cases root.completes x event [] with
  | false => exact ⟨hoffered, honly, Store.get?_put_self, rfl⟩
  | true =>
    obtain ⟨hgoes, htable'⟩ := putMatched_holds
      { cls with startOn := some (eventOperatorHandle x event [] root).1 } h hget hstart rfl
      hstop hname hr (.offeredStart event.id cls.id)
    have hsound := (hgoes.trans (hgoes.sound.act (.startedFor event.id cls.id))).sound
    refine (jobClassInductJob_offers (c := cls.id) hsound (htable'.inTable htable)
      Store.get?_put_self rfl).imp ?_
    rintro r ⟨hoffers, honly', hget', hok⟩
    refine ⟨?_, honly.trans ⟨honly'.classes, honly'.instances, honly'.jobEnviron⟩, hget', ?_⟩
    · rw [hoffers]
      exact (Sys.offers_offer _ (by rfl)).trans (congrArg (_ :: ·) hoffered)
    · rw [hok, Bool.not_true, Bool.false_or]
      refine cls.named_congr hhandled (fun e he' => ?_) rfl
      exact htouch.toExtends.label he'

theorem handleStartOn_offers {cls : ClassState} (h : SoundWith k w) (htable : InTable w c)
    (hget : w.classes.get? c = some cls) (he : (w.sys.event? event.id).isSome = true) :
    Sat (handleStartOn x w c event)
      (fun r => r.1.sys.offers = (cls.offers x event).reverse ++ w.sys.offers ∧
        OnlyClass c w r.1 ∧ r.1.classes.get? c = some (cls.afterOffer x event) ∧
        r.2 = !w.unnamed x event c)
      (fun _ => True) := by
  have hid : cls.id = c := Store.key_of_get? hget
  subst hid
  unfold handleStartOn World.getClass World.unnamed ClassState.offers ClassState.afterOffer
    ClassState.startsFor ClassState.mayStart ClassState.offeredRoot
  simp only [hget]
  rw [sat_bind, sat_ok]
  cases hroot : cls.startOn with
  | none => exact ⟨rfl, .refl w, hget, by simp⟩
  | some root =>
    have hoffer := offerStartOn_offers (x := x) h hget hroot rfl rfl htable he
    cases hcgroups : cls.config.cgroups with
    | false =>
      simp only [Bool.not_false, Bool.true_or, if_true, Option.any_some, Bool.true_and]
      refine hoffer.imp fun r hr => ⟨hr.1, hr.2.1, hr.2.2.1, ?_⟩
      rw [hr.2.2.2, Bool.not_and, Bool.not_not]
    | true =>
      cases havailable : x.cgroupManagerAvailable with
      | false =>
        -- the class is not started, and is offered the event unless it waits already
        cases hwait : cls.cgmanagerWait with
        | false =>
          simp only [Bool.not_true, Bool.false_eq_true, if_false, if_true, Bool.not_false,
            awaitCgroupManager, hwait, bind_assoc, Bool.or_true, Bool.or_self, Option.any_some,
            Bool.false_and, List.reverse_cons, List.reverse_nil, List.nil_append,
            List.cons_append, Bool.true_and, sat_bind, sat_ok, and_true]
          have hlinked := (h.accounts.grounded (Store.mem_of_get? hget) hroot).linked
          refine ((handleOperator_sat hlinked he).and
            (handleOperator_tree x w.sys root event)).mono ?_ fun _ _ => trivial
          rintro ⟨sys, root', matched⟩ ⟨⟨htouch, -⟩, rfl, rfl⟩
          refine ⟨?_, .putClass _ rfl, Store.get?_put_self⟩
          exact (Sys.offers_offer sys (by rfl)).trans (congrArg (_ :: ·) htouch.offers)
        | true =>
          simp only [Bool.not_true, Bool.false_eq_true, if_false, if_true, Bool.not_false,
            awaitCgroupManager, hwait, Bool.or_self, List.reverse_nil, List.nil_append,
            Option.any_none, Bool.and_self, sat_bind, sat_ok, and_true, true_and]
          exact ⟨.refl w, hget⟩
      | true =>
        cases hwait : cls.cgmanagerWait with
        | false =>
          simp only [Bool.not_true, Bool.false_eq_true, if_false, if_true, Bool.not_false,
            Bool.or_true, Option.any_some, Bool.true_and, List.reverse_cons, List.append_assoc,
            List.cons_append, List.nil_append, Bool.false_and, Bool.not_and, Bool.not_not]
          refine hoffer.imp fun r hr => ⟨?_, hr.2.1, ?_, hr.2.2.2⟩
          · rw [hr.1, List.reverse_cons, List.append_assoc]
            rfl
          · rw [hr.2.2.1, hwait]
        | true =>
          simp only [Bool.not_true, Bool.false_eq_true, if_false, if_true, Bool.or_self,
            Bool.or_true, Option.any_some, Bool.true_and, List.reverse_cons, List.append_assoc,
            List.cons_append, List.nil_append, Bool.false_and, Bool.not_and, Bool.not_not, sat_bind]
          have hreset := resetStartOn_sat { cls with cgmanagerWait := false } h hget rfl rfl rfl
          have hoffers := resetStartOn_offers (w := w)
            { cls with cgmanagerWait := false } hroot
          rw [hroot] at hreset hoffers
          refine (hreset.and hoffers).mono ?_ fun _ _ => trivial
          rintro w₁ ⟨⟨hgoes₁, hregs, -, hnames, hput⟩, hoffers₁, honly₁, -⟩
          obtain ⟨new, hext, -⟩ := hgoes₁.queue
          refine (offerStartOn_offers (x := x) hgoes₁.sound (hput root rfl) rfl rfl rfl
            ((SameTable.mk hregs hnames).inTable htable) (hext.event?_isSome he)).imp ?_
          rintro r ⟨hr, honly, hget', hok⟩
          refine ⟨?_, honly₁.trans honly, hget', ?_⟩
          · rw [hr, List.reverse_cons, List.append_assoc, hoffers₁]
            rfl
          · have hg : Grounded w.sys (eventOperatorReset root) :=
              ⟨EventOperator.linked_reset root, by simp⟩
            have hnamed := cls.named_congr (x := x) (hg.handle (x := x) he)
              (fun e he' => hext.label he') honly₁.jobEnviron
            rw [hok, ← hnamed]
            rfl

/-! ## The loop -/

theorem unnamed_congr (h : SoundWith k w) (he : (w.sys.event? event.id).isSome = true)
    (hclass : w'.classes.get? c = w.classes.get? c) (hlabel : ∀ e, (w.sys.event? e).isSome = true →
      (w'.sys.event? e).map Event.label = (w.sys.event? e).map Event.label)
    (henv : w'.jobEnviron = w.jobEnviron) : w'.unnamed x event c = w.unnamed x event c := by
  unfold World.unnamed
  rw [hclass]
  cases hget : w.classes.get? c with
  | none => rfl
  | some cls =>
    dsimp only
    cases hroot : cls.offeredRoot x with
    | none => rfl
    | some root =>
      rw [Option.any_some, Option.any_some,
        cls.named_congr ((h.grounded_offered hget hroot).handle he) hlabel henv]

theorem heard_congr {cs : List ClassId}
    (h : ∀ c ∈ cs, w'.unnamed x event c = w.unnamed x event c) :
    w'.heard x event cs = w.heard x event cs := by
  induction cs with
  | nil => rfl
  | cons c cs ih =>
    rw [World.heard, World.heard, h c List.mem_cons_self,
      ih fun c' hc' => h c' (List.mem_cons_of_mem c hc')]

theorem mem_of_mem_heard {cs : List ClassId} (h : c ∈ w.heard x event cs) : c ∈ cs := by
  induction cs with
  | nil => exact h
  | cons c' cs ih =>
    rw [World.heard] at h
    split at h
    · exact List.mem_cons.mpr (.inl (List.mem_singleton.mp h))
    · exact List.mem_cons.mpr ((List.mem_cons.mp h).imp_right ih)

theorem OnlyClass.offersTo {o : HashOrder} {c' : ClassId} (h : OnlyClass c w w') (hne : c' ≠ c) :
    w'.offersTo x o event c' = w.offersTo x o event c' := by
  unfold World.offersTo World.instance?
  rw [h.instances c' hne, h.classes c' hne]

/-- One pass of the loop: the event is offered to a class and its instances. -/
theorem handleClass_offers {o : HashOrder} (h : SoundWith k w) (htable : InTable w c)
    (he : (w.sys.event? event.id).isSome = true) :
    Sat (handleInstances x event w (o.order ((w.instances c).map Job.id)) >>= fun w =>
        handleStartOn x w c event)
      (fun r => (r.1.sys.offers = (w.offersTo x o event c).reverse ++ w.sys.offers ∧
        OnlyClass c w r.1 ∧ r.1.classes.get? c =
          (w.classes.get? c).map (ClassState.afterOffer x event) ∧
        r.2 = !w.unnamed x event c) ∧ Goes k w r.1 ∧ SameTable w r.1)
      (fun _ => True) := by
  obtain ⟨cls, hget, hreg⟩ := id htable
  have hnodup : (o.order ((w.instances c).map Job.id)).Nodup :=
    (o.perm _).nodup_iff.mpr (w.jobs.nodup.sublist (List.filter_sublist.map _))
  have hids : ∀ id ∈ o.order ((w.instances c).map Job.id), w.instance? c id ≠ none := by
    intro id hid
    obtain ⟨job, hjob, rfl⟩ := List.mem_map.mp ((o.perm _).mem_iff.mp hid)
    have hmem := List.mem_filter.mp hjob
    have hjob := instance?_eq_some.mpr ⟨Store.get?_of_mem hmem.1, by simpa using hmem.2⟩
    exact fun hnone => Option.some_ne_none job (hjob.symm.trans hnone)
  rw [sat_bind]
  refine ((handleInstances_offers h he hnodup hids).and (handleInstances_holds h he)).mono ?_
    fun _ _ => trivial
  rintro w₁ ⟨⟨hoffers₁, honly₁⟩, hgoes₁, hsame₁⟩
  obtain ⟨new, hext, -⟩ := hgoes₁.queue
  have hget₁ : w₁.classes.get? c = some cls := by rw [hsame₁.1, hget]
  have htable₁ := (SameTable.of_classes hsame₁).inTable htable
  have he₁ := hext.event?_isSome he
  have hunnamed : w₁.unnamed x event c = w.unnamed x event c :=
    unnamed_congr h he (by rw [hsame₁.1]) (fun e he' => hext.label he') honly₁.jobEnviron
  refine ((handleStartOn_offers (x := x) hgoes₁.sound htable₁ hget₁ he₁).and
    (handleStartOn_holds hgoes₁.sound htable₁ he₁)).mono ?_ fun _ _ => trivial
  rintro ⟨w₂, ok⟩ ⟨⟨hoffers₂, honly₂, hclass₂, hok⟩, hgoes₂, hsame₂⟩
  refine ⟨⟨?_, honly₁.trans honly₂, ?_, hok.trans (by rw [hunnamed])⟩, hgoes₁.trans hgoes₂,
    (SameTable.of_classes hsame₁).trans hsame₂⟩
  · rw [hoffers₂, hoffers₁, World.offersTo, hget, List.reverse_append, List.append_assoc]
    rfl
  · rw [hclass₂, hget]
    rfl

/-- The loop makes the offers that the state before it tells, and leaves the conditions
that it tells. -/
theorem handleClasses_offers {o : HashOrder} {cs : List ClassId} (h : SoundWith k w)
    (hnodup : cs.Nodup) (htable : ∀ c ∈ cs, InTable w c)
    (he : (w.sys.event? event.id).isSome = true) :
    Sat (handleClasses x o event w cs)
      (fun w' => w'.sys.offers =
          ((w.heard x event cs).flatMap (w.offersTo x o event)).reverse ++ w.sys.offers ∧
        ∀ c, w'.classes.get? c = if c ∈ w.heard x event cs
          then (w.classes.get? c).map (ClassState.afterOffer x event) else w.classes.get? c)
      (fun _ => True) := by
  induction cs generalizing w with
  | nil => exact ⟨rfl, fun c => rfl⟩
  | cons c cs ih =>
    obtain ⟨hc, hnodup⟩ := List.nodup_cons.mp hnodup
    have hclass := handleClass_offers (x := x) (o := o) h (htable c List.mem_cons_self) he
    rw [sat_bind] at hclass
    rw [handleClasses, sat_bind]
    refine hclass.imp fun w₁ hclass => ?_
    rw [sat_bind]
    refine Sat.imp hclass ?_
    rintro ⟨w₂, ok⟩ ⟨⟨hoffers, honly, hafter, hok⟩, hgoes, hsame⟩
    obtain ⟨new, hext, -⟩ := hgoes.queue
    dsimp only at hoffers honly hafter hok hext
    by_cases hunnamed : w.unnamed x event c = true
    · rw [hunnamed] at hok
      subst hok
      rw [World.heard, if_pos hunnamed]
      refine ⟨by rw [hoffers, List.flatMap_singleton], fun c' => ?_⟩
      by_cases heq : c' = c
      · rw [if_pos (by simp [heq]), heq]
        exact hafter
      · rw [if_neg (by simp [heq])]
        exact honly.classes c' heq
    · rw [Bool.not_eq_true] at hunnamed
      rw [hunnamed] at hok
      subst hok
      rw [World.heard, if_neg (by simp [hunnamed])]
      have hne : ∀ c' ∈ cs, c' ≠ c := fun c' hc' heq => hc (heq ▸ hc')
      have hheard : w₂.heard x event cs = w.heard x event cs := heard_congr fun c' hc' =>
        unnamed_congr h he (honly.classes c' (hne c' hc')) (fun e he' => hext.label he')
          honly.jobEnviron
      refine (ih hgoes.sound hnodup (fun c' hc' =>
        hsame.inTable (htable c' (List.mem_cons_of_mem c hc'))) (hext.event?_isSome he)).imp ?_
      rintro w₃ ⟨hoffers₃, hclasses₃⟩
      rw [hheard] at hoffers₃ hclasses₃
      refine ⟨?_, fun c' => ?_⟩
      · have hrest : (w.heard x event cs).flatMap (w₂.offersTo x o event) =
            (w.heard x event cs).flatMap (w.offersTo x o event) :=
          List.flatMap_congr fun c' hc' => honly.offersTo (hne c' (mem_of_mem_heard hc'))
        rw [hoffers₃, hrest, hoffers, List.flatMap_cons, List.reverse_append, List.append_assoc]
      · rw [hclasses₃]
        by_cases heq : c' = c
        · rw [if_neg fun hmem => hc (heq ▸ mem_of_mem_heard hmem), if_pos (by simp [heq]), heq]
          exact hafter
        · simp only [List.mem_cons, heq, false_or]
          rw [honly.classes c' heq]

/-- `event_pending` makes the offers that the state before it tells, to the classes that it
comes to, and leaves their conditions so. -/
theorem eventPending_offers {C : Host → World → WorldInput → Prop} {o : HashOrder}
    (h : WorldReached C w) (he : w.sys.event? event.id = some event) :
    Sat (eventPending x o w event)
      (fun w' => w'.sys.offers =
          ((w.heard x event (o.order (w.registered.items.map Registration.cls))).flatMap
            (w.offersTo x o event)).reverse ++ w.sys.offers ∧
        ∀ c, w'.classes.get? c =
          if c ∈ w.heard x event (o.order (w.registered.items.map Registration.cls))
          then (w.classes.get? c).map (ClassState.afterOffer x event) else w.classes.get? c)
      (fun _ => True) := by
  obtain ⟨leak, hs⟩ := reached_worldSound h
  obtain ⟨hhandling, -, hqueued⟩ := hs.handle he
  have hnodup := (o.perm _).nodup_iff.mpr hs.registered_nodup
  have hloop := handleClasses_offers (x := x) (o := o) hhandling hnodup
    (hhandling.inTable_order o) hqueued
  have hlabel : ∀ e, (w.sys.event? e).isSome = true →
      ((w.sys.modifyEvent event.id fun ev => { ev with progress := .handling }).event? e).map
        Event.label = (w.sys.event? e).map Event.label := by
    intro e _
    rw [event?_modifyEvent (f := fun ev => { ev with progress := .handling }) (fun _ => rfl),
      Option.map_map]
    refine Option.map_congr fun ev _ => ?_
    simp only [Function.comp]
    split <;> rfl
  have hheard : ∀ cs, (w.setSys (w.sys.modifyEvent event.id fun ev =>
      { ev with progress := .handling })).heard x event cs = w.heard x event cs :=
    fun cs => heard_congr fun c _ => unnamed_congr hs (by rw [he]; rfl) rfl hlabel rfl
  rw [hheard] at hloop
  exact hloop

/-! ## Who hears of an event -/

/-- A class that waits for the cgroup manager, which is not there, is left out. -/
def ClassState.leftOut (x : Host) (cls : ClassState) : Bool :=
  cls.startOn.isSome && (cls.offeredRoot x).isNone

/-- Neither the class nor an instance of it has a condition. -/
def World.deaf (w : World) (c : ClassId) : Prop :=
  (∀ cls, w.classes.get? c = some cls → cls.startOn = none) ∧
    ∀ job ∈ w.instances c, job.stopOn = none

/-- The event was offered to every condition of a job and of a registered class. -/
structure Delivered (w : World) (event : Event) (offers : List Action) : Prop where
  jobs : ∀ job ∈ w.jobs.items, job.stopOn.isSome = true →
    .offeredStop event.id job.id ∈ offers
  classes : ∀ r ∈ w.registered.items, ∀ cls, w.classes.get? r.cls = some cls →
    cls.startOn.isSome = true → .offeredStart event.id cls.id ∈ offers

theorem mem_offersTo_stop {o : HashOrder} {id : JobId} :
    .offeredStop event.id id ∈ w.offersTo x o event c ↔
      ∃ job ∈ w.instances c, job.id = id ∧ job.stopOn.isSome = true := by
  have hjob : ∀ job : Job, .offeredStop event.id id ∈ job.offers x event ↔
      job.id = id ∧ job.stopOn.isSome = true := by
    intro job
    unfold Job.offers
    cases job.stopOn with
    | none => simp
    | some root => dsimp only; split <;> simp [eq_comm]
  have hclass : ∀ cls : ClassState, .offeredStop event.id id ∉ cls.offers x event := by
    intro cls
    unfold ClassState.offers
    split
    · simp
    · split <;> simp
  unfold World.offersTo
  rw [List.mem_append, List.mem_flatMap]
  constructor
  · rintro (⟨id', -, hmem⟩ | hmem)
    · cases hfind : w.instance? c id' with
      | none => simp [hfind] at hmem
      | some job =>
        rw [hfind] at hmem
        obtain ⟨hget, hc⟩ := instance?_eq_some.mp hfind
        exact ⟨job, List.mem_filter.mpr ⟨Store.mem_of_get? hget, by simpa using hc⟩,
          (hjob job).mp hmem⟩
    · cases hget : w.classes.get? c with
      | none => simp [hget] at hmem
      | some cls => exact absurd (by simpa [hget] using hmem) (hclass cls)
  · rintro ⟨job, hmem, rfl, hstop⟩
    obtain ⟨hitem, hc⟩ := List.mem_filter.mp hmem
    have hfind : w.instance? c job.id = some job :=
      instance?_eq_some.mpr ⟨Store.get?_of_mem hitem, by simpa using hc⟩
    refine .inl ⟨job.id, (o.perm _).mem_iff.mpr (List.mem_map_of_mem hmem), ?_⟩
    rw [hfind]
    exact (hjob job).mpr ⟨rfl, hstop⟩

theorem mem_offersTo_start {o : HashOrder} {c' : ClassId} :
    .offeredStart event.id c' ∈ w.offersTo x o event c ↔
      c' = c ∧ ∃ cls, w.classes.get? c = some cls ∧ (cls.offeredRoot x).isSome = true := by
  have hjob : ∀ job : Job, .offeredStart event.id c' ∉ job.offers x event := by
    intro job
    unfold Job.offers
    split
    · simp
    · split <;> simp
  have hclass : ∀ cls : ClassState, .offeredStart event.id c' ∈ cls.offers x event ↔
      c' = cls.id ∧ (cls.offeredRoot x).isSome = true := by
    intro cls
    unfold ClassState.offers
    cases cls.offeredRoot x with
    | none => simp
    | some root => dsimp only; split <;> simp
  unfold World.offersTo
  rw [List.mem_append, List.mem_flatMap]
  constructor
  · rintro (⟨id, -, hmem⟩ | hmem)
    · cases hfind : w.instance? c id with
      | none => simp [hfind] at hmem
      | some job => exact absurd (by simpa [hfind] using hmem) (hjob job)
    · cases hget : w.classes.get? c with
      | none => simp [hget] at hmem
      | some cls =>
        rw [hget] at hmem
        obtain ⟨heq, hroot⟩ := (hclass cls).mp hmem
        exact ⟨heq.trans (Store.key_of_get? hget), cls, rfl, hroot⟩
  · rintro ⟨rfl, cls, hget, hroot⟩
    refine .inr ?_
    rw [hget]
    exact (hclass cls).mpr ⟨(Store.key_of_get? hget).symm, hroot⟩

/-- The loop comes to a class unless one of which no instance can be named stands before it. -/
theorem forall_heard_iff {cs : List ClassId} {P : ClassId → Prop} (hnodup : cs.Nodup) :
    (∀ c ∈ cs, c ∉ w.heard x event cs → P c) ↔
      cs.Pairwise fun c c' => w.unnamed x event c = true → P c' := by
  induction cs with
  | nil => simp
  | cons c cs ih =>
    obtain ⟨hc, hnodup⟩ := List.nodup_cons.mp hnodup
    have hne : ∀ c' ∈ cs, c' ≠ c := fun c' hc' heq => hc (heq ▸ hc')
    rw [List.pairwise_cons, World.heard]
    by_cases hunnamed : w.unnamed x event c = true
    · rw [if_pos hunnamed]
      constructor
      · intro h
        have hall : ∀ c' ∈ cs, P c' := fun c' hc' =>
          h c' (List.mem_cons_of_mem c hc') fun hmem => hne c' hc' (List.mem_singleton.mp hmem)
        exact ⟨fun c' hc' _ => hall c' hc', List.pairwise_of_forall_mem_list
          fun _ _ c' hc' _ => hall c' hc'⟩
      · rintro ⟨hall, -⟩ c' hc' hnot
        rcases List.mem_cons.mp hc' with rfl | hc'
        · exact absurd List.mem_cons_self hnot
        · exact hall c' hc' hunnamed
    · rw [if_neg hunnamed, ← ih hnodup]
      constructor
      · intro h
        refine ⟨fun _ _ hf => absurd hf hunnamed, fun c' hc' hnot => ?_⟩
        refine h c' (List.mem_cons_of_mem c hc') fun hmem => ?_
        exact (List.mem_cons.mp hmem).elim (hne c' hc') hnot
      · rintro ⟨-, h⟩ c' hc' hnot
        rcases List.mem_cons.mp hc' with rfl | hc'
        · exact absurd List.mem_cons_self hnot
        · exact h c' hc' fun hmem => hnot (List.mem_cons_of_mem c hmem)

section Heard

variable {o : HashOrder} {heard : List ClassId}

theorem mem_offers_stop {id : JobId} :
    .offeredStop event.id id ∈ (heard.flatMap (w.offersTo x o event)).reverse ↔
      ∃ c ∈ heard, ∃ job ∈ w.instances c, job.id = id ∧ job.stopOn.isSome = true := by
  simp only [List.mem_reverse, List.mem_flatMap, mem_offersTo_stop]

theorem mem_offers_start {c' : ClassId} :
    .offeredStart event.id c' ∈ (heard.flatMap (w.offersTo x o event)).reverse ↔
      c' ∈ heard ∧ ∃ cls, w.classes.get? c' = some cls ∧ (cls.offeredRoot x).isSome = true := by
  simp only [List.mem_reverse, List.mem_flatMap, mem_offersTo_start]
  constructor
  · rintro ⟨c, hc, rfl, hcls⟩
    exact ⟨hc, hcls⟩
  · rintro ⟨hc, hcls⟩
    exact ⟨c', hc, rfl, hcls⟩

/-- Where the event is delivered, every condition is offered to, and the classes that do not
hear of it have none. -/
theorem Delivered.reaches
    (hd : Delivered w event (heard.flatMap (w.offersTo x o event)).reverse) :
    (∀ r ∈ w.registered.items, ∀ cls, w.classes.get? r.cls = some cls → cls.leftOut x = false) ∧
      ∀ r ∈ w.registered.items, r.cls ∉ heard → w.deaf r.cls := by
  refine ⟨fun r hr cls hget => ?_, fun r hr hnot => ⟨fun cls hget => ?_, fun job hjob => ?_⟩⟩
  · cases hsome : cls.startOn.isSome with
    | false => rw [ClassState.leftOut, hsome, Bool.false_and]
    | true =>
      obtain ⟨-, cls', hget', hroot⟩ := mem_offers_start.mp (hd.classes r hr cls hget hsome)
      rw [show cls.id = r.cls from Store.key_of_get? hget, hget] at hget'
      cases hget'
      rw [ClassState.leftOut, ← Option.not_isSome, hroot, Bool.not_true, Bool.and_false]
  · by_contra hne
    have hsome := Option.isSome_iff_ne_none.mpr hne
    have hheard := (mem_offers_start.mp (hd.classes r hr cls hget hsome)).1
    exact hnot ((show cls.id = r.cls from Store.key_of_get? hget) ▸ hheard)
  · by_contra hne
    obtain ⟨hitem, hclass⟩ := List.mem_filter.mp hjob
    have hsome := Option.isSome_iff_ne_none.mpr hne
    obtain ⟨c', hheard, job', hjob', hid, -⟩ := mem_offers_stop.mp (hd.jobs job hitem hsome)
    obtain ⟨hitem', hclass'⟩ := List.mem_filter.mp hjob'
    obtain rfl : job' = job := List.inj_on_of_nodup_map w.jobs.nodup hitem' hitem hid
    have hc' : c' = r.cls := (of_decide_eq_true hclass').symm.trans (of_decide_eq_true hclass)
    exact hnot (hc' ▸ hheard)

/-- Where every condition is offered to and the others have nothing to offer it to, the event is
delivered. -/
theorem Delivered.of_heard (hhousing : Housing w.classes w.registered w.jobs)
    (hin : ∀ r ∈ w.registered.items, ∀ cls, w.classes.get? r.cls = some cls →
      cls.leftOut x = false)
    (hdeaf : ∀ r ∈ w.registered.items, r.cls ∉ heard → w.deaf r.cls) :
    Delivered w event (heard.flatMap (w.offersTo x o event)).reverse := by
  constructor
  case jobs =>
    intro job hitem hsome
    obtain ⟨cls, hcls, hreg⟩ := hhousing.homes job hitem
    obtain ⟨r, hr, hrc⟩ := Option.map_eq_some_iff.mp hreg
    have hjob : job ∈ w.instances job.classId := List.mem_filter.mpr ⟨hitem, by simp⟩
    refine mem_offers_stop.mpr ⟨job.classId, ?_, job, hjob, rfl, hsome⟩
    by_contra hnot
    rw [← hrc] at hnot hjob
    rw [(hdeaf r (Store.mem_of_get? hr) hnot).2 job hjob] at hsome
    cases hsome
  case classes =>
    intro r hr cls hget hsome
    have hid : cls.id = r.cls := Store.key_of_get? hget
    rw [hid]
    refine mem_offers_start.mpr ⟨?_, cls, hget, ?_⟩
    · by_contra hnot
      rw [(hdeaf r hr hnot).1 cls hget] at hsome
      cases hsome
    · have hout := hin r hr cls hget
      rw [ClassState.leftOut, hsome, Bool.true_and] at hout
      exact Option.isNone_eq_false_iff.mp hout

end Heard

/-- The loop makes the offers, stops and starts that the state before it tells, and leaves the
conditions so. They are offers to every job and every class with a condition exactly when
no class waits for a cgroup manager that is not there, and, in the order in which the
table yields them, only classes that have nothing to offer it to stand behind one that
the event starts and of which no instance can be named. -/
theorem eventPending_delivers_iff {C : Host → World → WorldInput → Prop} {o : HashOrder}
    (h : WorldReached C w) (he : w.sys.event? event.id = some event) :
    Sat (eventPending x o w event)
      (fun w' => ∃ offers, w'.sys.offers = offers ++ w.sys.offers ∧
        offers = ((w.heard x event (o.order (w.registered.items.map Registration.cls))).flatMap
          (w.offersTo x o event)).reverse ∧
        (∀ c, w'.classes.get? c =
          if c ∈ w.heard x event (o.order (w.registered.items.map Registration.cls))
          then (w.classes.get? c).map (ClassState.afterOffer x event) else w.classes.get? c) ∧
        (Delivered w event offers ↔
          (∀ r ∈ w.registered.items, ∀ cls, w.classes.get? r.cls = some cls →
            cls.leftOut x = false) ∧
          (o.order (w.registered.items.map Registration.cls)).Pairwise fun c c' =>
            w.unnamed x event c = true → w.deaf c'))
      (fun _ => True) := by
  obtain ⟨leak, hs⟩ := reached_worldSound h
  have hnodup := (o.perm _).nodup_iff.mpr hs.registered_nodup
  have hmem : ∀ c, c ∈ o.order (w.registered.items.map Registration.cls) ↔
      ∃ r ∈ w.registered.items, r.cls = c := fun c => (o.perm _).mem_iff.trans List.mem_map
  refine (eventPending_offers (x := x) (o := o) h he).imp ?_
  rintro w' ⟨hoffers, hclasses⟩
  refine ⟨_, hoffers, rfl, hclasses, ?_⟩
  rw [← forall_heard_iff hnodup]
  constructor
  · intro hd
    refine ⟨hd.reaches.1, fun c hc hnot => ?_⟩
    obtain ⟨r, hr, rfl⟩ := (hmem c).mp hc
    exact hd.reaches.2 r hr hnot
  · rintro ⟨hin, hdeaf⟩
    exact .of_heard hs.housing hin fun r hr => hdeaf r.cls ((hmem r.cls).mpr ⟨r, hr, rfl⟩)

/-- A file whose class starts on an event, with an instance that cannot be named. -/
def unnamedParsed : Parsed :=
  { onceParsed with config := { plainClass [.main] with instancePattern := "$X" } }

/-- The event that a client has emitted. -/
def emittedEvent : Event where
  id := 1
  name := "e"
  env := []
  fd := -1
  progress := .pending
  failed := false
  blockers := 0
  blocking := []
  valid := rfl

/-- The class behind the one of which no instance can be named does not hear of the event. -/
theorem eventPending_not_delivered :
    ∃ w event w' offers, WorldReached Anything w ∧ w.sys.event? 1 = some event ∧
      eventPending plainHost listOrder w event = .ok w' ∧
      w'.sys.offers = offers ++ w.sys.offers ∧ ¬ Delivered w event offers := by
  have h₁ := (reached_newWorld Anything).next
    (.load 0 "/one/a.conf" (some unnamedParsed) none) ⟨trivial, trivial⟩ rfl
  have h₂ := h₁.next (.load 1 "/two/b.conf" (some onceParsed) none) ⟨trivial, trivial⟩ rfl
  have h₃ := h₂.next (.emit none "e" [] rfl false (-1)) ⟨trivial, trivial⟩ rfl
  have hiff := (@eventPending_delivers_iff plainHost _ emittedEvent _ listOrder h₃ rfl).of_ok rfl
  obtain ⟨offers, hoffers, -, -, hdelivered⟩ := hiff
  refine ⟨_, _, _, offers, h₃, rfl, rfl, hoffers, fun hd => ?_⟩
  have hdeaf := (List.pairwise_cons.mp (hdelivered.mp hd).2).1 2 List.mem_cons_self rfl
  exact absurd (hdeaf.1 _ rfl) (Option.some_ne_none _)

/-- When an instance can be named for every class, the order in which the hash tables yield
their entries decides neither which conditions the event is offered to, nor which jobs are
stopped and of which classes instances are started, nor the conditions that are left. -/
theorem eventPending_order {C : Host → World → WorldInput → Prop} {o o' : HashOrder}
    {w₁ w₂ : World} (h : WorldReached C w) (he : w.sys.event? event.id = some event)
    (hnamed : ∀ r ∈ w.registered.items, w.unnamed x event r.cls = false)
    (h₁ : eventPending x o w event = .ok w₁) (h₂ : eventPending x o' w event = .ok w₂) :
    w₁.sys.offers.Perm w₂.sys.offers ∧ ∀ c, w₁.classes.get? c = w₂.classes.get? c := by
  have hheard : ∀ cs : List ClassId, (∀ c ∈ cs, w.unnamed x event c = false) →
      w.heard x event cs = cs := by
    intro cs hcs
    induction cs with
    | nil => rfl
    | cons c cs ih =>
      rw [World.heard, hcs c List.mem_cons_self, ih fun c' hc' => hcs c' (List.mem_cons_of_mem c hc')]
      rfl
  have hall : ∀ o : HashOrder,
      w.heard x event (o.order (w.registered.items.map Registration.cls)) =
        o.order (w.registered.items.map Registration.cls) := by
    intro o
    refine hheard _ fun c hc => ?_
    obtain ⟨r, hr, rfl⟩ := List.mem_map.mp ((o.perm _).mem_iff.mp hc)
    exact hnamed r hr
  have hperm : (o.order (w.registered.items.map Registration.cls)).Perm
      (o'.order (w.registered.items.map Registration.cls)) := (o.perm _).trans (o'.perm _).symm
  obtain ⟨hoffers₁, hclasses₁⟩ := (eventPending_offers (x := x) (o := o) h he).of_ok h₁
  obtain ⟨hoffers₂, hclasses₂⟩ := (eventPending_offers (x := x) (o := o') h he).of_ok h₂
  rw [hall o] at hoffers₁ hclasses₁
  rw [hall o'] at hoffers₂ hclasses₂
  refine ⟨?_, fun c => ?_⟩
  · rw [hoffers₁, hoffers₂]
    refine List.Perm.append_right _ ((List.reverse_perm _).trans (List.Perm.trans ?_
      (List.reverse_perm _).symm))
    have hto : ∀ c, (w.offersTo x o event c).Perm (w.offersTo x o' event c) := fun c =>
      List.Perm.append_right _ (List.Perm.flatMap_right _ ((o.perm _).trans (o'.perm _).symm))
    exact (List.Perm.flatMap_right _ hperm).trans (List.Perm.flatMap_left _ fun c _ => hto c)
  · rw [hclasses₁, hclasses₂]
    simp only [hperm.mem_iff]

/-- A table that yields its entries in the opposite order. -/
def reverseOrder : HashOrder := ⟨List.reverse, fun l => List.reverse_perm l⟩

/-- Two classes that start on the same event, in both orders. -/
theorem eventPending_order_two :
    ∃ w event w₁ w₂, WorldReached Anything w ∧ w.sys.event? 1 = some event ∧
      eventPending plainHost listOrder w event = .ok w₁ ∧
      eventPending plainHost reverseOrder w event = .ok w₂ ∧
      w₁.sys.offers.Perm w₂.sys.offers ∧ ∀ c, w₁.classes.get? c = w₂.classes.get? c := by
  have h₁ := (reached_newWorld Anything).next
    (.load 0 "/one/a.conf" (some onceParsed) none) ⟨trivial, trivial⟩ rfl
  have h₂ := h₁.next (.load 1 "/two/b.conf" (some onceParsed) none) ⟨trivial, trivial⟩ rfl
  have h₃ := h₂.next (.emit none "e" [] rfl false (-1)) ⟨trivial, trivial⟩ rfl
  obtain ⟨w, hw, he, hnamed, ⟨w₁, hrun₁⟩, ⟨w₂, hrun₂⟩⟩ : ∃ w, WorldReached Anything w ∧
      w.sys.event? 1 = some emittedEvent ∧
      (∀ r ∈ w.registered.items, w.unnamed plainHost emittedEvent r.cls = false) ∧
      (∃ w₁, eventPending plainHost listOrder w emittedEvent = .ok w₁) ∧
      ∃ w₂, eventPending plainHost reverseOrder w emittedEvent = .ok w₂ := by
    refine ⟨_, h₃, rfl, fun r hr => ?_, ⟨_, rfl⟩, ⟨_, rfl⟩⟩
    obtain rfl | hr := List.mem_cons.mp hr
    · rfl
    · cases List.mem_singleton.mp hr
      rfl
  exact ⟨w, emittedEvent, w₁, w₂, hw, he, hrun₁, hrun₂,
    eventPending_order hw he hnamed hrun₁ hrun₂⟩

end Startup
