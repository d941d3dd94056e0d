import Startup.World.Classes
import Startup.World.Poll

/-!
# Handling a pending event keeps the invariant

`event_pending_handle_jobs` goes through the registered classes and their
instances.  No job is freed on the way and no class leaves the table
(`SameTable`), so that the loops are over objects that stay.
-/

namespace Startup

open Lib

variable {k : Slack} {x : Host} {w w' w'' : World} {c : ClassId}

/-- The class is in the hash table, under its name. -/
def InTable (w : World) (c : ClassId) : Prop :=
  ∃ cls, w.classes.get? c = some cls ∧ w.getRegistered cls.config.name = some c

/-- The table of classes is as it was, and the classes have the names they had. -/
structure SameTable (w w' : World) : Prop where
  registered : w'.registered = w.registered
  names : SameNames w w'

namespace SameTable

theorem refl (w : World) : SameTable w w := ⟨rfl, fun _ cls hc => ⟨cls, hc, rfl⟩⟩

theorem trans (h : SameTable w w') (h' : SameTable w' w'') : SameTable w w'' := by
  refine ⟨h'.registered.trans h.registered, fun c cls hc => ?_⟩
  obtain ⟨cls', hc', hname⟩ := h.names c cls hc
  obtain ⟨cls'', hc'', hname'⟩ := h'.names c cls' hc'
  exact ⟨cls'', hc'', hname'.trans hname⟩

theorem of_classes (h : SameClasses w w') : SameTable w w' :=
  ⟨h.2, fun _ cls hc => ⟨cls, by rw [h.1]; exact hc, rfl⟩⟩

theorem inTable (h : SameTable w w') (hc : InTable w c) : InTable w' c := by
  obtain ⟨cls, hget, hreg⟩ := hc
  obtain ⟨cls', hget', hname⟩ := h.names c cls hget
  refine ⟨cls', hget', ?_⟩
  rw [World.getRegistered, h.registered, hname]
  exact hreg

end SameTable

theorem SoundWith.inTable (h : SoundWith k w) {r : Registration} (hr : r ∈ w.registered.items) :
    InTable w r.cls := by
  obtain ⟨cls, hcls, hname⟩ := h.housing.known r hr
  refine ⟨cls, hcls, ?_⟩
  rw [World.getRegistered, hname, show r.name = key r from rfl, Store.get?_of_mem hr]
  rfl

/-- A program that keeps the invariant and the table. -/
def Holds (k : Slack) (w : World) (m : Except Fault World) : Prop :=
  Sat m (fun w' => Goes k w w' ∧ SameTable w w') (fun f => f.ofQueue = false)

/-- The same for a program that also returns a flag. -/
def HoldsWith (k : Slack) (w : World) (m : Except Fault (World × Bool)) : Prop :=
  Sat m (fun r => Goes k w r.1 ∧ SameTable w r.1) (fun f => f.ofQueue = false)

theorem Holds.after {m : Except Fault World} (h : Holds k w' m) (hg : Goes k w w')
    (ht : SameTable w w') : Holds k w m :=
  Sat.imp h fun _ h' => ⟨hg.trans h'.1, ht.trans h'.2⟩

theorem HoldsWith.after {m : Except Fault (World × Bool)} (h : HoldsWith k w' m)
    (hg : Goes k w w') (ht : SameTable w w') : HoldsWith k w m :=
  Sat.imp h fun _ h' => ⟨hg.trans h'.1, ht.trans h'.2⟩

/-! ## Instances -/

theorem inductInstance_live {sys : Sys} {job : Job} {root : EventOperator} {env : List String} :
    Sat (inductInstance x sys job root env) (fun r => r.2.Live fun _ => True)
      (fun _ => True) := by
  unfold inductInstance
  rw [sat_bind]
  refine (sat_true (m := takeStartEnv _ _ _ _ _)).imp fun r _ => ?_
  rw [sat_bind]
  refine (sat_true (m := blockOnEvents _ _ _ _)).imp fun r' _ => ?_
  dsimp only
  rw [changeGoalIfOther_eq]
  exact jobChangeGoal_live

theorem handleStopOn_live {sys : Sys} {job : Job} {event : Event} :
    Sat (handleStopOn x sys job event) (fun r => r.2.Live fun _ => True) (fun _ => True) := by
  unfold handleStopOn
  split
  · trivial
  · rw [sat_bind]
    refine (sat_true (m := handleOperator _ _ _ _ _)).imp fun r _ => ?_
    dsimp only
    split
    · unfold stopForEvents
      rw [sat_bind]
      refine (sat_true (m := takeStopEnv _ _ _ _)).imp fun r' _ => ?_
      rw [sat_bind]
      refine (sat_true (m := blockOnEvents _ _ _ _)).imp fun r' _ => ?_
      rw [sat_bind]
      refine (sat_true (m := changeGoalIfOther _ _ _ _)).imp fun r' _ => ?_
      rw [sat_bind]
      refine (sat_true (m := JobRef.get _ _)).imp fun j _ => ?_
      rw [sat_bind]
      exact (sat_true (m := resetOperator _ _)).imp fun _ _ => trivial
    · trivial

/-- A call on a job that cannot free it. -/
theorem withJob_holds {fn : SourceFn} {id : JobId} {f : Sys → Job → Except Fault (Sys × JobRef)}
    (h : SoundWith k w) (hfn : (Fault.useAfterFree fn).ofQueue = false)
    (hf : ∀ job, w.jobs.get? id = some job → Acts w.sys job (f w.sys job))
    (hlive : ∀ sys job, Sat (f sys job) (fun r => r.2.Live fun _ => True) (fun _ => True)) :
    Sat (withJob w fn id f) (fun w' => Goes k w w' ∧ SameClasses w w')
      (fun f => f.ofQueue = false) :=
  ((withJob_stays h hfn hf).and (withJob_classes fun job _ => hlive w.sys job)).mono
    (fun _ h' => h') fun _ hE => hE.1

/-- The event is offered to the instances of a class. -/
theorem handleInstances_holds {event : Event} {ids : List JobId} (h : SoundWith k w)
    (he : (w.sys.event? event.id).isSome = true) :
    Sat (handleInstances x event w ids) (fun w' => Goes k w w' ∧ SameClasses w w')
      (fun f => f.ofQueue = false) := by
  unfold handleInstances
  induction ids generalizing w with
  | nil => exact ⟨.refl h, rfl, rfl⟩
  | cons id ids ih =>
    rw [List.foldlM_cons, sat_bind]
    refine (withJob_holds h rfl (fun job hget => ?_) fun _ _ => handleStopOn_live).imp ?_
    · have hmem := Store.mem_of_get? hget
      exact ⟨handleStopOn_frame (h.accounts.owned hmem) he,
        handleStopOn_settled (h.settled job hmem), handleStopOn_spent⟩
    · rintro w₁ ⟨h₁, hc₁⟩
      obtain ⟨new, hext, -⟩ := h₁.queue
      refine (ih h₁.sound (hext.event?_isSome he)).imp ?_
      rintro w₂ ⟨h₂, hc₂⟩
      exact ⟨h₁.trans h₂, hc₂.1.trans hc₁.1, hc₂.2.trans hc₁.2⟩

/-! ## Starting an instance -/

theorem resetStartOn_holds {old : ClassState} (cls : ClassState) (h : SoundWith k w)
    (hget : w.classes.get? cls.id = some old) (hstart : old.startOn = cls.startOn)
    (hstop : cls.stopOn = old.stopOn) (hname : cls.config.name = old.config.name) :
    Holds k w (resetStartOn w cls) :=
  (resetStartOn_sat cls h hget hstart hstop hname).imp fun _ h' => ⟨h'.1, h'.2.1, h'.2.2.2.1⟩

theorem jobClassInductJob_holds (h : SoundWith k w) (htable : InTable w c)
    (hstart : ∀ cls, w.classes.get? c = some cls → cls.startOn.isSome = true) :
    HoldsWith k w (jobClassInductJob x w c) := by
  unfold jobClassInductJob HoldsWith
  rw [sat_bind]
  refine (getClass_sat rfl).imp fun cls ⟨hcls, hid⟩ => ?_
  obtain ⟨root, hroot⟩ := Option.isSome_iff_exists.mp (hstart cls hcls)
  obtain ⟨cls', hcls', hreg⟩ := htable
  rw [hcls] at hcls'
  cases hcls'
  subst hid
  have hg := h.accounts.grounded (Store.mem_of_get? hcls) hroot
  rw [hroot]
  dsimp only
  rw [sat_bind]
  refine (eventOperatorEnvironment_sat hg).mono (fun env _ => ?_) fun _ hf => hf.elim
  split
  · rw [sat_bind]
    exact (resetStartOn_holds cls h hcls rfl rfl rfl).imp fun w' h' => h'
  · rw [sat_bind]
    refine (findOrNew_sat h hcls hreg).imp ?_
    rintro ⟨w₁, job⟩ ⟨h₁, hc₁, hjob⟩
    obtain ⟨new, hext, -⟩ := h₁.queue
    dsimp only at h₁ hc₁ hjob hext ⊢
    rw [sat_bind]
    refine (withJob_holds h₁.sound rfl (fun job' hget => ?_) fun _ _ => inductInstance_live).imp ?_
    · have hmem := Store.mem_of_get? hget
      exact ⟨inductInstance_frame (h₁.sound.accounts.owned hmem) (hg.mono hext),
        inductInstance_settled (h₁.sound.settled job' hmem), inductInstance_spent⟩
    · rintro w₂ ⟨h₂, hc₂⟩
      rw [sat_bind]
      refine (getClass_sat rfl).imp fun cls₂ ⟨hcls₂, hid₂⟩ => ?_
      rw [← hid₂] at hcls₂
      rw [sat_bind]
      have hreset := resetStartOn_holds cls₂ h₂.sound hcls₂ rfl rfl rfl
      have htable := (SameTable.of_classes hc₁).trans (.of_classes hc₂)
      exact (hreset.after (h₁.trans h₂) htable).imp fun w' h' => h'

/-- The class is written back with the matches that an event has added. -/
theorem putMatched_holds {old : ClassState} (cls : ClassState) {root : EventOperator} {event : Event}
    {r : Sys × EventOperator × Bool} (h : SoundWith k w)
    (hget : w.classes.get? cls.id = some old) (hstart : old.startOn = some root)
    (hstart' : cls.startOn = some r.2.1) (hstop : cls.stopOn = old.stopOn)
    (hname : cls.config.name = old.config.name)
    (hr : Touches w.sys r.1 ∧ r.2.1.Linked ∧ (∀ e ∈ r.2.1.refs, e ∈ root.refs ∨ e = event.id) ∧
      ∀ e, r.1.blockers e + root.refs.count e = w.sys.blockers e + r.2.1.refs.count e)
    (a : Action) :
    Goes k w ((w.setSys (r.1.act a)).putClass cls) ∧
      SameTable w ((w.setSys (r.1.act a)).putClass cls) := by
  obtain ⟨htouch, hlinked, -, hb⟩ := hr
  have hput := h.putStartOn cls hget hstart hstart' hstop hname htouch hlinked hb
  exact ⟨hput.trans (hput.sound.act a), rfl, sameNames_put cls hget hname _⟩

theorem offerStartOn_holds {old cls : ClassState} {root : EventOperator} {event : Event}
    (h : SoundWith k w) (hget : w.classes.get? cls.id = some old)
    (hstart : old.startOn = some root) (hstop : cls.stopOn = old.stopOn)
    (hname : cls.config.name = old.config.name) (htable : InTable w cls.id)
    (he : (w.sys.event? event.id).isSome = true) :
    HoldsWith k w (offerStartOn x w cls root event) := by
  have hlinked := (h.accounts.linked old (Store.mem_of_get? hget)).1 root hstart
  unfold offerStartOn HoldsWith
  rw [sat_bind]
  refine (handleOperator_sat hlinked he).mono ?_ fun _ hf => hf.elim
  intro r hr
  obtain ⟨h₁, ht₁⟩ := putMatched_holds { cls with startOn := some r.2.1 } h hget hstart rfl
    hstop hname hr (.offeredStart event.id cls.id)
  dsimp only
  split
  · have h₂ := h₁.trans (h₁.sound.act (.startedFor event.id cls.id))
    refine (jobClassInductJob_holds h₂.sound (c := cls.id) ?_ ?_).after h₂
      ⟨ht₁.registered, ht₁.names⟩
    · exact ht₁.inTable htable
    · intro cls' hcls'
      have hself : (w.classes.put { cls with startOn := some r.2.1 }).get? cls.id =
          some { cls with startOn := some r.2.1 } := Store.get?_put_self
      obtain rfl := Option.some.inj (hself.symm.trans hcls')
      rfl
  · exact ⟨h₁, ht₁⟩

theorem awaitCgroupManager_holds {cls : ClassState} {root : EventOperator} {event : Event}
    (h : SoundWith k w) (hget : w.classes.get? cls.id = some cls)
    (hstart : cls.startOn = some root) (he : (w.sys.event? event.id).isSome = true) :
    Holds k w (awaitCgroupManager x w cls root event) := by
  have hlinked := (h.accounts.linked cls (Store.mem_of_get? hget)).1 root hstart
  unfold awaitCgroupManager Holds
  split
  · exact ⟨.refl h, .refl w⟩
  · rw [sat_bind]
    refine (handleOperator_sat hlinked he).mono ?_ fun _ hf => hf.elim
    intro r hr
    exact putMatched_holds { cls with startOn := some r.2.1, cgmanagerWait := r.2.2 } h
      hget hstart rfl rfl rfl hr _

theorem handleStartOn_holds {event : Event} (h : SoundWith k w) (htable : InTable w c)
    (he : (w.sys.event? event.id).isSome = true) :
    HoldsWith k w (handleStartOn x w c event) := by
  unfold handleStartOn HoldsWith
  rw [sat_bind]
  refine (getClass_sat rfl).imp fun cls ⟨hcls, hid⟩ => ?_
  subst hid
  split
  · exact ⟨.refl h, .refl w⟩
  · rename_i root hroot
    split
    · exact offerStartOn_holds h hcls hroot rfl rfl htable he
    split
    · rw [sat_bind]
      exact (awaitCgroupManager_holds h hcls hroot he).imp fun w' h' => h'
    split
    · exact offerStartOn_holds h hcls hroot rfl rfl htable he
    · rw [sat_bind]
      refine (resetStartOn_sat { cls with cgmanagerWait := false } h hcls rfl rfl rfl).imp ?_
      rintro w₁ ⟨h₁, hregs, -, hnames, hput⟩
      obtain ⟨new, hext, -⟩ := h₁.queue
      have ht₁ : SameTable w w₁ := ⟨hregs, hnames⟩
      exact (offerStartOn_holds h₁.sound (hput root hroot) rfl rfl rfl (ht₁.inTable htable)
        (hext.event?_isSome he)).after h₁ ht₁

/-! ## The loop over the classes -/

theorem handleClasses_holds {o : HashOrder} {event : Event} {cs : List ClassId}
    (h : SoundWith k w) (htable : ∀ c ∈ cs, InTable w c)
    (he : (w.sys.event? event.id).isSome = true) :
    Holds k w (handleClasses x o event w cs) := by
  unfold Holds
  induction cs generalizing w with
  | nil => exact ⟨.refl h, .refl w⟩
  | cons c cs ih =>
    rw [handleClasses, sat_bind]
    refine (handleInstances_holds h he).imp ?_
    rintro w₁ ⟨h₁, hc₁⟩
    have ht₁ := SameTable.of_classes hc₁
    obtain ⟨new, hext, -⟩ := h₁.queue
    have he₁ := hext.event?_isSome he
    rw [sat_bind]
    refine (handleStartOn_holds h₁.sound (ht₁.inTable (htable c List.mem_cons_self)) he₁).imp ?_
    rintro ⟨w₂, ok⟩ ⟨h₂, ht₂⟩
    have h₁₂ := h₁.trans h₂
    have ht₁₂ := ht₁.trans ht₂
    cases ok with
    | false => exact ⟨h₁₂, ht₁₂⟩
    | true =>
      obtain ⟨new₂, hext₂, -⟩ := h₂.queue
      exact Holds.after (ih h₂.sound
        (fun c' hc' => ht₁₂.inTable (htable c' (List.mem_cons_of_mem _ hc')))
        (hext₂.event?_isSome he₁)) h₁₂ ht₁₂

/-- The classes that a hash table yields are those in it. -/
theorem SoundWith.inTable_order (h : SoundWith k w) (o : HashOrder) :
    ∀ c ∈ o.order (w.registered.items.map Registration.cls), InTable w c := by
  intro c hc
  obtain ⟨r, hr, rfl⟩ := List.mem_map.mp ((o.perm _).mem_iff.mp hc)
  exact h.inTable hr

theorem eventPendingHandleJobs_holds {o : HashOrder} {event : Event} (h : SoundWith k w)
    (he : (w.sys.event? event.id).isSome = true) :
    Holds k w (eventPendingHandleJobs x o w event) :=
  handleClasses_holds h (h.inTable_order o) he

/-! ## The cgroup manager -/

theorem inductWaiting_holds (h : SoundWith k w) (htable : InTable w c) :
    Holds k w (inductWaiting x w c) := by
  unfold inductWaiting Holds
  rw [sat_bind]
  refine (getClass_sat rfl).imp fun cls ⟨hcls, hid⟩ => ?_
  split
  · exact ⟨.refl h, .refl w⟩
  · rename_i root hroot
    split
    · exact ⟨.refl h, .refl w⟩
    · refine sat_assert (fun _ => rfl) fun _ => ?_
      rw [sat_bind]
      refine (jobClassInductJob_holds h htable ?_).imp ?_
      · intro cls' hcls'
        rw [hcls] at hcls'
        cases hcls'
        simp [hroot]
      · rintro ⟨w₁, ok⟩ ⟨h₁, ht₁⟩
        dsimp only at h₁ ht₁ ⊢
        rw [sat_bind]
        refine (getClass_sat rfl).imp fun cls₁ ⟨hcls₁, hid₁⟩ => ?_
        subst hid₁
        exact (resetStartOn_holds { cls₁ with cgmanagerWait := false } h₁.sound hcls₁ rfl rfl
          rfl).after h₁ ht₁

theorem jobClassInductJobs_holds {o : HashOrder} (h : SoundWith k w) :
    Holds k w (jobClassInductJobs x o w) := by
  unfold jobClassInductJobs Holds
  refine sat_assert (fun _ => rfl) fun _ => ?_
  have htable := h.inTable_order o
  generalize o.order (w.registered.items.map Registration.cls) = cs at htable
  induction cs generalizing w with
  | nil => exact ⟨.refl h, .refl w⟩
  | cons c cs ih =>
    rw [List.foldlM_cons, sat_bind]
    refine (inductWaiting_holds h (htable c List.mem_cons_self)).imp ?_
    rintro w₁ ⟨h₁, ht₁⟩
    exact Holds.after (ih h₁.sound fun c' hc' =>
      ht₁.inTable (htable c' (List.mem_cons_of_mem _ hc'))) h₁ ht₁

end Startup
