import Startup.World.Sound

/-!
# Classes and instances keep the invariant

The functions of `Startup.World.State` keep the invariant: conditions that are
reset or taken over, the choice of the registered class, the destruction of
classes and jobs, a call on a job, and new instances.
-/

namespace Startup

open Lib

variable {k : Slack} {x : Host} {w : World}

/-- The classes are where they were, and have the names that they had. -/
def SameNames (w w' : World) : Prop :=
  ∀ c cls, w.classes.get? c = some cls →
    ∃ cls', w'.classes.get? c = some cls' ∧ cls'.config.name = cls.config.name

theorem sameNames_put {old : ClassState} (cls : ClassState) (hget : w.classes.get? cls.id = some old)
    (hname : cls.config.name = old.config.name) (sys : Sys) :
    SameNames w ((w.setSys sys).putClass cls) := by
  intro c c' hc
  by_cases heq : c = cls.id
  · rw [heq, hget] at hc
    cases hc
    exact ⟨cls, by rw [heq]; exact Store.get?_put_self, hname⟩
  · exact ⟨c', (Store.get?_put_ne heq).trans hc, rfl⟩

/-! ## Conditions -/

/-- The condition of a class is written back, with the blocks that it now has. -/
theorem SoundWith.putStartOn (h : SoundWith k w) {sys : Sys} {old : ClassState} (cls : ClassState)
    {root root' : EventOperator} (hget : w.classes.get? cls.id = some old)
    (hstart : old.startOn = some root) (hstart' : cls.startOn = some root')
    (hstop : cls.stopOn = old.stopOn) (hname : cls.config.name = old.config.name)
    (htouch : Touches w.sys sys) (hlinked : root'.Linked)
    (hb : ∀ e, sys.blockers e + root.refs.count e = w.sys.blockers e + root'.refs.count e) :
    Goes k w ((w.setSys sys).putClass cls) := by
  refine ⟨h.putClass cls hget htouch (fun e => ?_) ⟨?_, ?_⟩ hname, [], htouch.toExtends, by simp⟩
  · have := hb e
    rw [ClassState.refs, ClassState.refs, hstart, hstart', hstop, List.count_append,
      List.count_append, Option.elim_some, Option.elim_some]
    omega
  · intro r hr
    rw [hstart'] at hr
    cases hr
    exact hlinked
  · rw [hstop]
    exact (h.accounts.linked old (Store.mem_of_get? hget)).2

theorem resetStartOn_sat {old : ClassState} (cls : ClassState) (h : SoundWith k w)
    (hget : w.classes.get? cls.id = some old) (hstart : old.startOn = cls.startOn)
    (hstop : cls.stopOn = old.stopOn) (hname : cls.config.name = old.config.name) :
    Sat (resetStartOn w cls)
      (fun w' => Goes k w w' ∧ w'.registered = w.registered ∧ w'.jobs = w.jobs ∧
        SameNames w w' ∧ ∀ root, cls.startOn = some root →
          w'.classes.get? cls.id = some { cls with startOn := some (eventOperatorReset root) })
      (fun f => f.ofQueue = false) := by
  unfold resetStartOn
  split
  · rename_i hnone
    exact ⟨.refl h, rfl, rfl, fun c cls hc => ⟨cls, hc, rfl⟩, fun root hr => by simp [hnone] at hr⟩
  · rename_i root hroot
    rw [sat_bind]
    have hle := h.accounts.startOn_le (Store.mem_of_get? hget) (hstart.trans hroot)
    refine (resetOperator_sat hle).mono ?_ fun _ hf => hf.elim
    rintro ⟨sys, _⟩ ⟨htouch, rfl, hb⟩
    have hput := h.putStartOn { cls with startOn := some (eventOperatorReset root) } hget
      (hstart.trans hroot) rfl hstop hname htouch (EventOperator.linked_reset root)
      (fun e => by rw [EventOperator.refs_reset]; exact hb e)
    refine ⟨hput, rfl, rfl, sameNames_put { cls with startOn := some _ } hget hname sys, ?_⟩
    intro root' hr
    rw [hroot] at hr
    cases hr
    exact Store.get?_put_self

/-- The leaves are those of `event_operator_handle`; only inner nodes differ. -/
theorem handleLeaves_eq (x : Host) (event : Event) (root : EventOperator) :
    (handleLeaves x event root).1.refs = (eventOperatorHandle x event [] root).1.refs ∧
      (handleLeaves x event root).2 = (eventOperatorHandle x event [] root).2 ∧
      ((handleLeaves x event root).1.Linked ↔ (eventOperatorHandle x event [] root).1.Linked) := by
  induction root with
  | eventMatch name env v ev => exact ⟨rfl, rfl, Iff.rfl⟩
  | eventAnd v l r ihl ihr | eventOr v l r ihl ihr =>
    simp [handleLeaves, eventOperatorHandle, updateAnd, updateOr, EventOperator.refs,
      EventOperator.Linked, ihl, ihr]

/-- What taking over matches keeps: the new condition has as many blocks more as
it has matches more. -/
structure TakesOver (sys : Sys) (newRoot : EventOperator) (r : Sys × EventOperator) : Prop where
  touches : Touches sys r.1
  linked : r.2.Linked
  balance : ∀ e, r.1.blockers e + newRoot.refs.count e = sys.blockers e + r.2.refs.count e

theorem blockMatched_sat {sys : Sys} {newRoot : EventOperator} {r : Sys × EventOperator}
    {e : EventId} (h : TakesOver sys newRoot r) (he : (sys.event? e).isSome = true) :
    Sat (blockMatched x r e) (TakesOver sys newRoot) (fun _ => False) := by
  have hqueued := h.touches.event?_isSome he
  obtain ⟨event, hevent⟩ := Option.isSome_iff_exists.mp hqueued
  have hid : event.id = e := by simpa using List.find?_some hevent
  obtain ⟨hrefs, hcount, hlinked⟩ := handleLeaves_eq x event r.2
  unfold blockMatched
  rw [hevent]
  dsimp only
  rw [sat_bind]
  refine (blockAll_sat r.1 ?_).imp ?_
  · intro e' he'
    rw [List.eq_of_mem_replicate he', hid]
    exact hqueued
  · rintro sys' ⟨htouch, hb⟩
    refine ⟨h.touches.trans htouch, hlinked.mpr (h.linked.handle x event []), fun e' => ?_⟩
    have h₁ := EventOperator.count_refs_handle x event [] h.linked e'
    have h₂ := h.balance e'
    have h₃ := hb e'
    rw [hcount, List.count_replicate] at h₃
    simp only [beq_iff_eq, eq_comm (a := event.id)] at h₃
    dsimp only
    rw [hrefs]
    omega

theorem foldlM_blockMatched_sat {sys : Sys} {newRoot : EventOperator} {es : List EventId}
    {r : Sys × EventOperator} (h : TakesOver sys newRoot r)
    (he : ∀ e ∈ es, (sys.event? e).isSome = true) :
    Sat (es.foldlM (blockMatched x) r) (TakesOver sys newRoot) (fun _ => False) := by
  induction es generalizing r with
  | nil => exact h
  | cons e es ih =>
    rw [List.foldlM_cons, sat_bind]
    refine (blockMatched_sat h (he e List.mem_cons_self)).imp fun r' h' => ?_
    exact ih h' fun e' he' => he e' (List.mem_cons_of_mem _ he')

theorem jobClassEventBlock_sat {old new : ClassId} (h : SoundWith k w) :
    Sat (jobClassEventBlock x w old new)
      (fun w' => Goes k w w' ∧ w'.registered = w.registered ∧ w'.jobs = w.jobs ∧ SameNames w w')
      (fun f => f.ofQueue = false) := by
  have hsame : Goes k w w ∧ w.registered = w.registered ∧ w.jobs = w.jobs ∧ SameNames w w :=
    ⟨.refl h, rfl, rfl, fun c cls hc => ⟨cls, hc, rfl⟩⟩
  unfold jobClassEventBlock
  rw [sat_bind]
  refine (getClass_sat rfl).imp fun oldClass ⟨hold, hoid⟩ => ?_
  rw [sat_bind]
  refine (getClass_sat rfl).imp fun newClass ⟨hnew, hnid⟩ => ?_
  split
  · rename_i oldRoot newRoot hoRoot hnRoot
    split
    · have hg := h.accounts.grounded (Store.mem_of_get? hold) hoRoot
      have hl := (h.accounts.linked _ (Store.mem_of_get? hnew)).1 newRoot hnRoot
      rw [sat_bind]
      have hstart : TakesOver w.sys newRoot (w.sys, newRoot) := ⟨.refl _, hl, fun _ => rfl⟩
      refine (foldlM_blockMatched_sat hstart hg.queued).mono ?_ fun _ hf => hf.elim
      rintro ⟨sys, root⟩ ⟨htouch, hlinked, hb⟩
      have hget : w.classes.get? newClass.id = some newClass := by rw [hnid]; exact hnew
      refine ⟨h.putStartOn _ hget hnRoot rfl rfl rfl htouch hlinked hb, rfl, rfl,
        sameNames_put { newClass with startOn := some root } hget rfl sys⟩
    · exact hsame
  · exact hsame

/-! ## The registered class of a name -/

theorem selectFrom_sat {name : String} {files : List ConfFile} :
    Sat (selectFrom w name files)
      (fun r => ∀ c, r = some c → ∃ cls, w.classes.get? c = some cls ∧ cls.config.name = name)
      (fun f => f.ofQueue = false) := by
  induction files with
  | nil => exact fun c hc => by cases hc
  | cons file files ih =>
    unfold selectFrom
    split
    · exact ih
    · rw [sat_bind]
      refine (getClass_sat rfl).imp fun cls hget => ?_
      obtain ⟨hcls, -⟩ := hget
      split
      · rename_i hname
        rintro c ⟨⟩
        exact ⟨cls, hcls, hname⟩
      · exact ih

/-- Only the table of classes has changed. -/
def OnlyTable (w w' : World) : Prop :=
  ∃ registered, w' = { w with registered := registered }

/-- A class is added under a name that is free. -/
theorem jobClassAdd_sat {best : Option ClassId} {name : String} (h : SoundWith k w)
    (hnone : w.registered.get? name = none)
    (hbest : ∀ c, best = some c → ∃ cls, w.classes.get? c = some cls ∧ cls.config.name = name) :
    Sat (jobClassAdd w best)
      (fun w' => Goes k w w' ∧ OnlyTable w w' ∧ w'.getRegistered name = best)
      (fun f => f.ofQueue = false) := by
  unfold jobClassAdd
  split
  · exact ⟨.refl h, ⟨_, rfl⟩, by rw [World.getRegistered, hnone]; rfl⟩
  · rename_i c
    obtain ⟨cls, hcls, rfl⟩ := hbest c rfl
    rw [sat_bind]
    refine (getClass_sat rfl).imp fun cls' hget => ?_
    obtain ⟨hcls', hid⟩ := hget
    rw [hcls] at hcls'
    cases hcls'
    subst hid
    refine ⟨⟨h.register hcls hnone, [], .refl _, by simp⟩, ⟨_, rfl⟩, ?_⟩
    exact congrArg (Option.map Registration.cls)
      (Store.get?_put_self (a := (⟨cls.config.name, cls.id⟩ : Registration)))

theorem instances_isEmpty {c : ClassId} (h : (w.instances c).isEmpty = true) :
    ∀ job ∈ w.jobs.items, job.classId ≠ c := by
  intro job hj
  have := List.filter_eq_nil_iff.mp (List.isEmpty_iff.mp h) job hj
  simpa using this

/-- A registered class leaves the table when it has no instances. -/
theorem jobClassRemove_spec {cls : ClassState} (h : SoundWith k w)
    (hreg : w.getRegistered cls.config.name = some cls.id) :
    Goes k w (jobClassRemove w cls).1 ∧ OnlyTable w (jobClassRemove w cls).1 ∧
      ((jobClassRemove w cls).2 = true →
        (jobClassRemove w cls).1.registered.get? cls.config.name = none) ∧
      ((jobClassRemove w cls).2 = false → (jobClassRemove w cls).1 = w) := by
  unfold jobClassRemove
  split
  · rename_i hempty
    exact ⟨⟨h.unregister hreg (instances_isEmpty hempty), [], .refl _, by simp⟩, ⟨_, rfl⟩,
      fun _ => Store.get?_erase_self, fun hf => absurd hf (by simp)⟩
  · exact ⟨.refl h, ⟨_, rfl⟩, fun hf => absurd hf (by simp), fun _ => rfl⟩

theorem OnlyTable.trans {w' w'' : World} (h : OnlyTable w w') (h' : OnlyTable w' w'') :
    OnlyTable w w'' := by
  obtain ⟨r, rfl⟩ := h
  obtain ⟨r', rfl⟩ := h'
  exact ⟨r', rfl⟩

theorem OnlyTable.getClass {w' : World} (h : OnlyTable w w') : w'.classes = w.classes := by
  obtain ⟨r, rfl⟩ := h
  rfl

theorem jobClassConsider_stays {c : ClassId} (h : SoundWith k w) :
    StaysWith k w (fun _ _ => True) (jobClassConsider x w c) := by
  unfold jobClassConsider StaysWith
  rw [sat_bind]
  refine (getClass_sat rfl).imp fun cls ⟨hcls, _⟩ => ?_
  rw [sat_bind]
  refine selectFrom_sat.imp fun r hr => ?_
  cases r with
  | none => rfl
  | some best =>
    dsimp only
    obtain ⟨bestClass, hbest, hbestName⟩ := hr best rfl
    cases hreg : w.getRegistered cls.config.name with
    | none =>
      have hnone : w.registered.get? cls.config.name = none := Option.map_eq_none_iff.mp hreg
      dsimp only
      rw [sat_bind]
      refine (jobClassAdd_sat h hnone ?_).imp fun w' h' => ⟨h'.1, trivial⟩
      rintro _ ⟨⟩
      exact ⟨bestClass, hbest, hbestName⟩
    | some old =>
      dsimp only
      split
      · exact ⟨.refl h, trivial⟩
      · rw [sat_bind]
        refine (jobClassEventBlock_sat h).imp ?_
        rintro w₁ ⟨h₁, hregs, hjobs, hnames⟩
        rw [sat_bind]
        refine (getClass_sat rfl).imp fun oldClass ⟨hold, hid⟩ => ?_
        have hreg₁ : w₁.getRegistered cls.config.name = some old := by
          rw [World.getRegistered, hregs]
          exact hreg
        obtain ⟨oldClass', hold', hname⟩ := h₁.sound.getRegistered hreg₁
        rw [hold] at hold'
        cases hold'
        subst hid
        rw [← hname] at hreg₁
        obtain ⟨h₂, honly, htrue, hfalse⟩ := jobClassRemove_spec h₁.sound hreg₁
        obtain ⟨best₁, hbest₁, hbestName₁⟩ := hnames best bestClass hbest
        cases hremove : jobClassRemove w₁ oldClass with
        | mk w₂ removed =>
          rw [hremove] at h₂ honly htrue hfalse
          cases removed with
          | true =>
            dsimp only at h₂ honly htrue ⊢
            rw [sat_bind]
            have hnone : w₂.registered.get? cls.config.name = none := hname ▸ htrue rfl
            refine (jobClassAdd_sat h₂.sound hnone ?_).imp fun w' h' =>
              ⟨(h₁.trans h₂).trans h'.1, trivial⟩
            rintro _ ⟨⟩
            rw [honly.getClass]
            exact ⟨best₁, hbest₁, hbestName₁.trans hbestName⟩
          | false =>
            obtain rfl : w₂ = w₁ := hfalse rfl
            dsimp only
            rw [sat_bind]
            refine (getClass_sat rfl).imp fun b ⟨hb, hbid⟩ => ?_
            rw [sat_bind]
            rw [← hbid] at hb
            exact (resetStartOn_sat b h₁.sound hb rfl rfl rfl).imp fun w' h' =>
              ⟨h₁.trans h'.1, trivial⟩

/-- A class that is not the registered one afterwards is not registered at all. -/
theorem jobClassReconsider_sat {c : ClassId} (h : SoundWith k w) :
    Sat (jobClassReconsider w c)
      (fun r => Goes k w r.1 ∧ OnlyTable w r.1 ∧ (r.2 = true → ∀ cls, w.classes.get? c = some cls →
        r.1.getRegistered cls.config.name ≠ some c))
      (fun f => f.ofQueue = false) := by
  unfold jobClassReconsider
  rw [sat_bind]
  refine (getClass_sat rfl).imp fun cls ⟨hcls, hid⟩ => ?_
  rw [sat_bind]
  refine selectFrom_sat.imp fun best hbest => ?_
  split
  · rename_i hreg
    split
    · exact ⟨.refl h, ⟨_, rfl⟩, fun hf => by cases hf⟩
    · rename_i hne
      subst hid
      obtain ⟨h₁, honly, htrue, hfalse⟩ := jobClassRemove_spec h hreg
      cases hremove : jobClassRemove w cls with
      | mk w₁ removed =>
        rw [hremove] at h₁ honly htrue hfalse
        cases removed with
        | true =>
          dsimp only at h₁ honly htrue ⊢
          rw [sat_bind]
          refine (jobClassAdd_sat h₁.sound (htrue rfl) ?_).imp ?_
          · intro c hc
            rw [honly.getClass]
            exact hbest c hc
          · rintro w₂ ⟨h₂, honly₂, hreg₂⟩
            refine ⟨h₁.trans h₂, honly.trans honly₂, fun _ cls' hcls' => ?_⟩
            rw [hcls] at hcls'
            cases hcls'
            rw [hreg₂]
            exact hne
        | false =>
          obtain rfl : w₁ = w := hfalse rfl
          exact ⟨.refl h, ⟨_, rfl⟩, fun hf => by cases hf⟩
  · rename_i hreg
    refine ⟨.refl h, ⟨_, rfl⟩, fun _ cls' hcls' => ?_⟩
    rw [hcls] at hcls'
    cases hcls'
    exact hreg

/-! ## Destruction -/

theorem destroyOperator_sat {sys : Sys} {root : Option EventOperator}
    (h : ∀ e, (root.elim [] EventOperator.refs).count e ≤ sys.blockers e) :
    Sat (destroyOperator sys root)
      (fun sys' => Touches sys sys' ∧
        ∀ e, sys'.blockers e + (root.elim [] EventOperator.refs).count e = sys.blockers e)
      (fun _ => False) := by
  cases root with
  | none => exact ⟨.refl sys, fun _ => rfl⟩
  | some root => exact unblockAll_sat h

/-- A class that is not registered is freed. -/
theorem freeClass_sat {old cls : ClassState} (h : SoundWith k w)
    (hget : w.classes.get? cls.id = some old) (hstart : cls.startOn = old.startOn)
    (hstop : cls.stopOn = old.stopOn)
    (hempty : ∀ job ∈ w.jobs.items, job.classId ≠ cls.id)
    (hreg : ∀ r ∈ w.registered.items, r.cls ≠ cls.id) :
    Sat (freeClass w cls) (fun w' => Goes k w w' ∧ w'.jobs = w.jobs)
      (fun f => f.ofQueue = false) := by
  have hid : old.id = cls.id := Store.key_of_get? hget
  have hle : ∀ e, cls.refs.count e ≤ w.sys.blockers e := by
    intro e
    have := h.accounts.class_le (Store.mem_of_get? hget) e
    rwa [ClassState.refs, ← hstart, ← hstop] at this
  have hcount : ∀ e, cls.refs.count e =
      (cls.startOn.elim [] EventOperator.refs).count e +
        (cls.stopOn.elim [] EventOperator.refs).count e := fun e => List.count_append
  have hnone : w.instances cls.id = [] := List.filter_eq_nil_iff.mpr fun job hj => by
    simpa using hempty job hj
  have hjobs : (w.jobs.filter fun job => job.classId ≠ cls.id) = w.jobs :=
    Store.ext (List.filter_eq_self.mpr fun job hj => by simpa using hempty job hj)
  unfold freeClass
  rw [sat_bind]
  refine (destroyOperator_sat fun e => ?_).mono ?_ fun _ hf => hf.elim
  · have h₁ := hle e
    have h₂ := hcount e
    omega
  rintro sys₁ ⟨ht₁, hb₁⟩
  rw [sat_bind]
  refine (destroyOperator_sat fun e => ?_).mono ?_ fun _ hf => hf.elim
  · have h₁ := hle e
    have h₂ := hcount e
    have h₃ := hb₁ e
    omega
  rintro sys₂ ⟨ht₂, hb₂⟩
  rw [hnone, hjobs]
  have htouch := ht₁.trans ht₂
  have herase := h.eraseClass old (hid ▸ hget) (hid ▸ hempty) (hid ▸ hreg)
  have hrelease := herase.release old.refs k.leak (fun _ => rfl) htouch fun e => by
    have h₂ := hcount e
    have h₃ := hb₁ e
    have h₄ := hb₂ e
    rw [show old.refs = cls.refs by rw [ClassState.refs, ClassState.refs, hstart, hstop]]
    show sys₂.blockers e + _ = w.sys.blockers e
    omega
  rw [hid] at hrelease
  exact ⟨⟨hrelease, [], htouch.toExtends, by simp⟩, rfl⟩

/-- A job that waits for nothing and has no entries is destroyed, and no other one. -/
theorem jobDestroy_sat {job : Job} (h : SoundWith k w) (hget : w.jobs.get? job.id = some job)
    (hblocking : job.blocking = []) (hblocker : job.blocker = none) :
    Sat (jobDestroy w job) (fun w' => Goes k w w' ∧ w'.jobs = w.jobs.erase job.id)
      (fun f => f.ofQueue = false) := by
  have hrefs : job.refs = job.stopOn.elim [] EventOperator.refs := by
    rw [Job.refs, hblocking]
    exact List.append_nil _
  have hle := h.accounts.job_le (Store.mem_of_get? hget)
  have herase := h.eraseJob hget hblocker
  unfold jobDestroy
  dsimp only
  rw [sat_bind]
  refine (jobClassReconsider_sat herase).imp ?_
  rintro ⟨w₁, unused⟩ ⟨h₁, honly, hunused⟩
  dsimp only at h₁ honly hunused ⊢
  rw [sat_bind]
  refine (getClass_sat rfl).imp fun cls hfound => ?_
  obtain ⟨hcls, hid⟩ := hfound
  have hsys : w₁.sys = w.sys := by
    obtain ⟨r, rfl⟩ := honly
    rfl
  have hjobs : w₁.jobs = w.jobs.erase job.id := by
    obtain ⟨r, rfl⟩ := honly
    rfl
  rw [sat_bind]
  refine (destroyOperator_sat fun e => ?_).mono ?_ fun _ hf => hf.elim
  · rw [hsys, ← hrefs]
    exact hle e
  rintro sys ⟨htouch, hb⟩
  have h₂ : SoundWith k (w₁.setSys sys) :=
    h₁.sound.release job.refs k.leak (fun _ => rfl) htouch
      (fun e => by rw [hrefs]; exact hb e)
  have hgoes : Goes k w (w₁.setSys sys) := by
    refine ⟨h₂, [], ?_, by simp⟩
    rw [← hsys]
    exact htouch.toExtends
  have hclasses := honly.getClass
  split
  · rename_i hfree
    have hun := hunused (Bool.and_eq_true_iff.mp hfree).2 cls (by rw [← hclasses]; exact hcls)
    rw [← hid] at hcls hun
    obtain ⟨hempty, hreg⟩ := h₂.unregistered hcls hun
    exact (freeClass_sat h₂ hcls rfl rfl hempty hreg).imp fun w' h' =>
      ⟨hgoes.trans h'.1, h'.2.trans hjobs⟩
  · exact ⟨hgoes, hjobs⟩

theorem jobDestroy_stays {job : Job} (h : SoundWith k w) (hget : w.jobs.get? job.id = some job)
    (hblocking : job.blocking = []) (hblocker : job.blocker = none) :
    Stays k w (jobDestroy w job) :=
  (jobDestroy_sat h hget hblocking hblocker).imp fun _ h' => h'.1

/-! ## Jobs -/

/-- What a call on a job keeps, with everything that the invariant needs. -/
structure Acts (sys : Sys) (job : Job) (m : Except Fault (Sys × JobRef)) : Prop where
  framed : Framed sys job m
  settling : Settling (· ≠ .security) m
  spends : Spends m

/-- A job that has been written and is then destroyed need not have been
written. -/
theorem jobDestroy_putJob (w : World) (job : Job) :
    jobDestroy (w.putJob job) job = jobDestroy w job := by
  have herase : (w.jobs.put job).erase job.id = w.jobs.erase job.id := Store.erase_put
  unfold jobDestroy World.putJob
  rw [herase]

theorem withJob_stays {fn : SourceFn} {id : JobId} {f : Sys → Job → Except Fault (Sys × JobRef)}
    (h : SoundWith k w) (hfn : (Fault.useAfterFree fn).ofQueue = false)
    (hf : ∀ job, w.jobs.get? id = some job → Acts w.sys job (f w.sys job)) :
    Stays k w (withJob w fn id f) := by
  unfold withJob Stays
  cases hget : w.jobs.get? id with
  | none => exact hfn
  | some job =>
    have hid : job.id = id := Store.key_of_get? hget
    obtain ⟨hframed, hsettling, hspends⟩ := hf job hget
    dsimp only
    rw [sat_bind]
    refine ((hframed.and hsettling).and hspends).mono ?_ fun _ hE => hE.1.1
    rw [← hid] at hget
    rintro ⟨sys, job' | job'⟩ ⟨⟨hframe, hset⟩, hspent⟩
    · obtain ⟨new, hext, hlink⟩ := hframe.queue
      exact ⟨h.frameJob hget hframe hset, new, hext, hlink.2.2⟩
    · obtain ⟨new, hext, hlink⟩ := hframe.queue
      obtain ⟨hblocking, hblocker⟩ := hspent
      -- the job is freed in waiting, where it would be settled
      have hwaiting : Settled (· ≠ .security) { job' with state := .waiting, goal := .stop } := by
        refine ⟨?_, ?_, ?_, ?_, ?_, ?_⟩ <;> simp [hblocker, JobState.spawning?, JobState.driver]
      have hframe' : Frame w.sys job sys { job' with state := .waiting, goal := .stop } :=
        hframe.trans (.of_same rfl rfl rfl rfl rfl rfl rfl)
      have hput := h.frameJob hget hframe' hwaiting
      have hdestroy := jobDestroy_stays hput Store.get?_put_self hblocking hblocker
      rw [jobDestroy_putJob] at hdestroy
      exact hdestroy.after ⟨hput, new, hext, hlink.2.2⟩

/-- The classes and the table of them are as they were. -/
def SameClasses (w w' : World) : Prop :=
  w'.classes = w.classes ∧ w'.registered = w.registered

/-- A call that cannot free the job changes no class. -/
theorem withJob_classes {fn : SourceFn} {id : JobId} {f : Sys → Job → Except Fault (Sys × JobRef)}
    (hf : ∀ job, w.jobs.get? id = some job →
      Sat (f w.sys job) (fun r => r.2.Live fun _ => True) (fun _ => True)) :
    Sat (withJob w fn id f) (SameClasses w) (fun _ => True) := by
  unfold withJob
  cases hget : w.jobs.get? id with
  | none => trivial
  | some job =>
    dsimp only
    rw [sat_bind]
    refine (hf job hget).imp ?_
    rintro ⟨sys, job' | job'⟩ hlive
    · exact ⟨rfl, rfl⟩
    · exact hlive.elim

/-- The condition of a class is copied for a new instance. -/
theorem copyStopOn_sat {sys : Sys} {root : EventOperator} (h : Grounded sys root) :
    Sat (copyOperator sys root)
      (fun r => Touches sys r.1 ∧ r.2 = root ∧
        ∀ e, r.1.blockers e = sys.blockers e + root.refs.count e)
      (fun _ => False) := by
  unfold copyOperator
  rw [sat_bind]
  exact (blockAll_sat sys h.queued).imp fun sys' h' => ⟨h'.1, rfl, h'.2⟩

theorem jobNewInstance_sat {cls : ClassState} {name : String} (h : SoundWith k w)
    (hget : w.classes.get? cls.id = some cls)
    (hreg : w.getRegistered cls.config.name = some cls.id)
    (hfresh : ∀ job ∈ w.jobs.items, job.classId = cls.id → job.name ≠ name) :
    Sat (jobNewInstance w cls name)
      (fun r => Goes k w r.1 ∧ SameClasses w r.1 ∧ r.1.jobs.get? r.2.id = some r.2)
      (fun f => f.ofQueue = false) := by
  have hnew : ∀ sys stopOn, Touches w.sys sys →
      (∀ e, sys.blockers e = w.sys.blockers e + (stopOn.elim [] EventOperator.refs).count e) →
      (∀ root, stopOn = some root → root.Linked) →
      Goes k w { (w.setSys sys).putJob (jobNew (w.lastJob + 1) cls.id cls.config name stopOn) with
        lastJob := w.lastJob + 1 } := fun sys stopOn htouch hb hlinked =>
    ⟨h.newJob hget hreg htouch hb hlinked hfresh, [], htouch.toExtends, by simp⟩
  unfold jobNewInstance
  cases hstop : cls.stopOn with
  | none =>
    exact ⟨hnew w.sys none (.refl _) (fun e => rfl) (by simp), ⟨rfl, rfl⟩, Store.get?_put_self⟩
  | some root =>
    have hmem := Store.mem_of_get? hget
    have hgrounded : Grounded w.sys root := by
      refine ⟨(h.accounts.linked cls hmem).2 root hstop, fun e he =>
        Sys.event?_isSome_of_blockers ?_⟩
      have hle := h.accounts.stopOn_le hmem hstop e
      have hpos := List.count_pos_iff.mpr he
      omega
    rw [sat_bind]
    refine (copyStopOn_sat hgrounded).mono ?_ fun _ hf => hf.elim
    rintro ⟨sys, _⟩ ⟨htouch, rfl, hb⟩
    refine ⟨hnew sys (some _) htouch hb ?_, ⟨rfl, rfl⟩, Store.get?_put_self⟩
    rintro _ ⟨⟩
    exact hgrounded.linked

/-- There is an instance of that name afterwards. -/
theorem findOrNew_sat {cls : ClassState} {name : String} (h : SoundWith k w)
    (hget : w.classes.get? cls.id = some cls)
    (hreg : w.getRegistered cls.config.name = some cls.id) :
    Sat (findOrNew w cls name)
      (fun r => Goes k w r.1 ∧ SameClasses w r.1 ∧ r.1.jobs.get? r.2.id = some r.2)
      (fun f => f.ofQueue = false) := by
  unfold findOrNew
  split
  · rename_i job hfind
    have hmem : job ∈ w.instances cls.id := List.mem_of_find?_eq_some hfind
    exact ⟨.refl h, ⟨rfl, rfl⟩, Store.get?_of_mem (List.mem_filter.mp hmem).1⟩
  · rename_i hnone
    refine jobNewInstance_sat h hget hreg fun job hj hclass hname => ?_
    have hmem : job ∈ w.instances cls.id := List.mem_filter.mpr ⟨hj, by simpa using hclass⟩
    exact absurd (List.find?_eq_none.mp hnone job hmem) (by simpa using hname)

end Startup
