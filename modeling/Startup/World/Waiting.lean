import Startup.World.Replacing

/-!
# Classes that wait for the cgroup manager

A class with `cgroup` stanzas is not started before the cgroup manager is there.
`cgmanager_wait` records that it has to be started then.  The flag is set with the
first match of any leaf, so that it says more than the condition does unless that
match makes the condition true.

* `KeepsStart`: what the functions of init leave as it was in the classes;
* `WaitSound`: a class waits exactly when its condition is true;
* `Undisturbed`: the steps under which the flag and the condition stay together.
-/

namespace Startup

open Lib

variable {x : Host} {w w' w'' : World} {c : ClassId} {P : ClassState → Prop}

/-! ## What stays as it was -/

/-- The part of a class that decides when it is started. -/
structure SameStart (cls cls' : ClassState) : Prop where
  id : cls'.id = cls.id
  config : cls'.config = cls.config
  startOn : cls'.startOn = cls.startOn
  wait : cls'.cgmanagerWait = cls.cgmanagerWait

theorem SameStart.refl (cls : ClassState) : SameStart cls cls := ⟨rfl, rfl, rfl, rfl⟩

theorem SameStart.trans {cls cls' cls'' : ClassState} (h : SameStart cls cls')
    (h' : SameStart cls' cls'') : SameStart cls cls'' :=
  ⟨h'.id.trans h.id, h'.config.trans h.config, h'.startOn.trans h.startOn, h'.wait.trans h.wait⟩

/-- The classes but those that `P` describes start as they did. -/
def KeepsStart (P : ClassState → Prop) (w w' : World) : Prop :=
  ∀ cls' ∈ w'.classes.items, P cls' ∨ ∃ cls ∈ w.classes.items, SameStart cls cls'

/-- No class is excepted. -/
abbrev Nobody : ClassState → Prop := fun _ => False

namespace KeepsStart

theorem of_classes (h : w'.classes = w.classes) : KeepsStart P w w' := by
  intro cls hcls
  rw [h] at hcls
  exact .inr ⟨cls, hcls, .refl cls⟩

theorem mono {Q : ClassState → Prop} (h : KeepsStart P w w') (hPQ : ∀ cls, P cls → Q cls) :
    KeepsStart Q w w' := fun cls hcls => (h cls hcls).imp_left (hPQ cls)

theorem trans (h : KeepsStart P w w') (h' : KeepsStart P w' w'')
    (hP : ∀ cls cls', SameStart cls cls' → P cls → P cls') : KeepsStart P w w'' := by
  intro cls'' hcls''
  rcases h' cls'' hcls'' with hp | ⟨cls', hcls', hsame'⟩
  · exact .inl hp
  · rcases h cls' hcls' with hp | ⟨cls, hcls, hsame⟩
    · exact .inl (hP cls' cls'' hsame' hp)
    · exact .inr ⟨cls, hcls, hsame.trans hsame'⟩

theorem after (h : KeepsStart Nobody w w') (h' : KeepsStart P w' w'') : KeepsStart P w w'' := by
  intro cls'' hcls''
  rcases h' cls'' hcls'' with hp | ⟨cls', hcls', hsame'⟩
  · exact .inl hp
  · obtain hf | ⟨cls, hcls, hsame⟩ := h cls' hcls'
    · exact hf.elim
    · exact .inr ⟨cls, hcls, hsame.trans hsame'⟩

theorem put {cls old : ClassState} (hget : w.classes.get? cls.id = some old)
    (hsame : SameStart old cls) : KeepsStart P w (w.putClass cls) := by
  intro cls' hcls'
  rcases Store.mem_put.mp hcls' with heq | ⟨hmem, -⟩
  · exact .inr ⟨old, Store.mem_of_get? hget, heq ▸ hsame⟩
  · exact .inr ⟨cls', hmem, .refl cls'⟩

theorem put_of {cls : ClassState} (h : P cls) : KeepsStart P w (w.putClass cls) := by
  intro cls' hcls'
  rcases Store.mem_put.mp hcls' with heq | ⟨hmem, -⟩
  · exact .inl (heq ▸ h)
  · exact .inr ⟨cls', hmem, .refl cls'⟩

/-- A class that is still there starts as it did. -/
theorem get (h : KeepsStart P w w') {cls cls' : ClassState} (hget : w.classes.get? c = some cls)
    (hget' : w'.classes.get? c = some cls') : P cls' ∨ SameStart cls cls' := by
  rcases h cls' (Store.mem_of_get? hget') with hp | ⟨old, hold, hsame⟩
  · exact .inl hp
  · have hid : old.id = c := hsame.id.symm.trans (Store.key_of_get? hget')
    have hold' : w.classes.get? c = some old := hid ▸ Store.get?_of_mem hold
    rw [hget] at hold'
    cases hold'
    exact .inr hsame

end KeepsStart

/-- A program that leaves the classes as they were, but for those of `P`. -/
abbrev LeavesStart (P : ClassState → Prop) (w : World) (m : Except Fault World) : Prop :=
  Sat m (KeepsStart P w) (fun _ => True)

theorem freeClass_leaves (w : World) (cls : ClassState) : LeavesStart P w (freeClass w cls) := by
  unfold freeClass
  rw [LeavesStart, sat_bind]
  refine sat_true.imp fun _ _ => ?_
  rw [sat_bind]
  refine sat_true.imp fun _ _ => ?_
  rw [sat_bind]
  refine sat_true.imp fun _ _ => ?_
  intro cls' hcls'
  exact .inr ⟨cls', (Store.mem_erase.mp hcls').1, .refl cls'⟩

theorem jobDestroy_leaves (w : World) (job : Job) : LeavesStart Nobody w (jobDestroy w job) := by
  unfold jobDestroy
  rw [LeavesStart, sat_bind]
  refine (jobClassReconsider_onlyTable _ _).imp ?_
  rintro ⟨w₁, unused⟩ honly
  have h₁ : KeepsStart Nobody w w₁ := .of_classes honly.getClass
  rw [sat_bind]
  refine (sat_true (m := World.getClass _ _ _)).imp fun cls _ => ?_
  rw [sat_bind]
  refine (sat_true (m := destroyOperator _ _)).imp fun sys _ => ?_
  split
  · exact (freeClass_leaves _ cls).imp fun w₂ h₂ => h₁.after h₂
  · exact h₁

theorem withJob_leaves (w : World) (fn : SourceFn) (id : JobId)
    (f : Sys → Job → Except Fault (Sys × JobRef)) : LeavesStart Nobody w (withJob w fn id f) := by
  unfold withJob LeavesStart
  split
  · trivial
  · rw [sat_bind]
    refine (sat_true (m := f _ _)).imp ?_
    rintro ⟨sys, job | job⟩ -
    · exact .of_classes rfl
    · exact jobDestroy_leaves (w.setSys sys) job

theorem confFileDestroy_leaves (w : World) (file : ConfFile) :
    LeavesStart Nobody w (confFileDestroy w file) := by
  unfold confFileDestroy LeavesStart
  split
  · exact .of_classes rfl
  · rename_i c _
    rw [sat_bind]
    refine (getClass_sat (w := w) (c := c) rfl).mono ?_ fun _ _ => trivial
    rintro cls ⟨hget, hid⟩
    have hput : KeepsStart Nobody w (w.putClass { cls with deleted := true }) := by
      rw [← hid] at hget
      exact .put hget ⟨rfl, rfl, rfl, rfl⟩
    rw [sat_bind]
    refine (jobClassReconsider_onlyTable _ c).imp ?_
    rintro ⟨w₁, unused⟩ honly
    have h₁ : KeepsStart Nobody w w₁ := hput.after (.of_classes honly.getClass)
    dsimp only
    split
    · exact (freeClass_leaves w₁ _).imp fun w₂ h₂ => h₁.after h₂
    · exact h₁

theorem destroyOrig_leaves (w : World) (orig : Option ConfFile) :
    LeavesStart Nobody w (destroyOrig w orig) := by
  cases orig with
  | none => exact .of_classes rfl
  | some file => exact confFileDestroy_leaves w file

theorem confDeleteHandler_leaves (w : World) (source : Nat) (path : String) :
    LeavesStart Nobody w (confDeleteHandler w source path) := by
  unfold confDeleteHandler LeavesStart
  split
  · exact .of_classes rfl
  · exact (confFileDestroy_leaves (w.removeFile source path) _).imp fun _ h => h

theorem findOrNew_leaves (w : World) (cls : ClassState) (name : String) :
    Sat (findOrNew w cls name) (fun r => r.1.classes = w.classes) (fun _ => True) := by
  unfold findOrNew jobNewInstance
  split
  · rfl
  · cases cls.stopOn with
    | none => rfl
    | some root =>
      dsimp only
      rw [sat_bind]
      exact (sat_true (m := copyOperator _ _)).imp fun _ _ => rfl

theorem jobClassStart_leaves (w : World) (c : ClassId) (message : MessageId) (env : List String)
    (wait : Bool) : LeavesStart Nobody w (jobClassStart x w c message env wait) := by
  unfold jobClassStart
  rw [LeavesStart, sat_bind]
  refine (sat_true (m := World.getClass _ _ _)).imp fun cls _ => ?_
  split
  · exact .of_classes rfl
  · split
    · exact .of_classes rfl
    · dsimp only
      split
      · exact .of_classes rfl
      · rw [sat_bind]
        refine (findOrNew_leaves w cls _).imp ?_
        rintro ⟨w₁, job⟩ h₁
        exact (withJob_leaves w₁ _ _ _).imp fun w₂ h₂ => (KeepsStart.of_classes h₁).after h₂

theorem finishEntry_leaves (w : World) (e : EventId) (entry : Blocked) :
    LeavesStart Nobody w (finishEntry x e w entry) := by
  unfold finishEntry LeavesStart
  cases entry with
  | job id =>
    rw [sat_bind]
    exact (withJob_leaves w _ id _).imp fun _ h => h
  | emitMethod m =>
    dsimp only
    split
    · trivial
    · exact .of_classes rfl
  | _ => trivial

theorem eventFinished_leaves (w : World) (e : EventId) :
    LeavesStart Nobody w (eventFinished x w e) := by
  unfold eventFinished LeavesStart
  split
  · trivial
  · rename_i event _
    rw [sat_bind]
    refine sat_true.imp fun _ _ => ?_
    rw [sat_bind]
    have hall : LeavesStart Nobody w (event.blocking.foldlM (finishEntry x e) w) :=
      foldlM_sat (.of_classes rfl) fun w₁ h₁ entry _ =>
        (finishEntry_leaves w₁ e entry).imp fun w₂ h₂ => h₁.after h₂
    refine hall.imp fun w₁ h₁ => ?_
    split
    · trivial
    · exact h₁

theorem pollHandled_leaves (w : World) (e : EventId) : LeavesStart Nobody w (pollHandled x w e) := by
  unfold pollHandled LeavesStart
  split
  · trivial
  · split
    · exact .of_classes rfl
    · exact (eventFinished_leaves (w.setSys _) e).imp fun _ h => h

theorem stateFromString_leaves (w : World) : LeavesStart Nobody w (stateFromString w) := by
  unfold stateFromString
  rw [LeavesStart, sat_bind]
  refine sat_true.imp fun _ _ => ?_
  rw [sat_bind]
  refine sat_true.imp fun _ _ => ?_
  intro cls hcls
  exact .inr ⟨cls, (Store.mem_filter.mp hcls).1, .refl cls⟩

theorem handleInstances_leaves (w : World) (event : Event) (ids : List JobId) :
    LeavesStart Nobody w (handleInstances x event w ids) :=
  foldlM_sat (.of_classes rfl) fun w₁ h₁ id _ =>
    (withJob_leaves w₁ _ id _).imp fun _ h₂ => h₁.after h₂

/-! ## The class that an event is offered to -/

/-- The classes at other addresses start as they did, and the one at `c` is as `Q` says. -/
structure Offered (c : ClassId) (Q : ClassState → Prop) (w w' : World) : Prop where
  others : KeepsStart (fun cls => cls.id = c) w w'
  own : ∀ cls, w'.classes.get? c = some cls → Q cls

namespace Offered

variable {Q Q' : ClassState → Prop}

theorem put {cls : ClassState} (hid : cls.id = c) (hQ : Q cls) : Offered c Q w (w.putClass cls) := by
  refine ⟨.put_of hid, fun cls' hget => ?_⟩
  have hself : (w.putClass cls).classes.get? c = some cls := hid ▸ Store.get?_put_self
  rw [hself] at hget
  cases hget
  exact hQ

theorem ofSys {sys : Sys} (h : Offered c Q (w.setSys sys) w') : Offered c Q w w' :=
  ⟨h.others, h.own⟩

theorem putSys {cls : ClassState} (sys : Sys) (hid : cls.id = c) (hQ : Q cls) :
    Offered c Q w ((w.setSys sys).putClass cls) :=
  ofSys (put hid hQ)

theorem before (h : KeepsStart Nobody w w') (h' : Offered c Q w' w'') : Offered c Q w w'' :=
  ⟨h.after h'.others, h'.own⟩

theorem trans (h : Offered c Q w w') (h' : Offered c Q' w' w'') : Offered c Q' w w'' :=
  ⟨h.others.trans h'.others fun _ _ hsame hid => hsame.id.trans hid, h'.own⟩

theorem imp (h : Offered c Q w w') (hQ : ∀ cls, Q cls → Q' cls) : Offered c Q' w w' :=
  ⟨h.others, fun cls hget => hQ cls (h.own cls hget)⟩

end Offered

theorem resetStartOn_put {cls : ClassState} {root : EventOperator}
    (hroot : cls.startOn = some root) :
    Sat (resetStartOn w cls)
      (fun w' => ∃ sys, w' = (w.setSys sys).putClass
        { cls with startOn := some (eventOperatorReset root) }) (fun _ => True) := by
  unfold resetStartOn resetOperator
  rw [hroot]
  dsimp only
  rw [sat_bind, sat_bind]
  exact (sat_true (m := unblockAll _ _)).imp fun sys _ => ⟨sys, rfl⟩

theorem resetStartOn_offered {cls : ClassState} {root : EventOperator}
    (hroot : cls.startOn = some root) :
    Sat (resetStartOn w cls)
      (Offered cls.id (SameStart { cls with startOn := some (eventOperatorReset root) }) w)
      (fun _ => True) := by
  refine (resetStartOn_put hroot).imp ?_
  rintro _ ⟨sys, rfl⟩
  exact Offered.putSys sys rfl (SameStart.refl _)

/-- A class that is started has its condition reset. -/
theorem jobClassInductJob_offered {cls : ClassState} {root : EventOperator}
    (hget : w.classes.get? c = some cls) (hroot : cls.startOn = some root) :
    Sat (jobClassInductJob x w c)
      (fun r => Offered c (SameStart { cls with startOn := some (eventOperatorReset root) }) w r.1)
      (fun _ => True) := by
  have hid : cls.id = c := Store.key_of_get? hget
  subst hid
  unfold jobClassInductJob World.getClass
  simp only [hget]
  rw [sat_bind, sat_ok, hroot]
  dsimp only
  rw [sat_bind]
  refine (sat_true (m := eventOperatorEnvironment _ _ _ _ _)).imp fun env _ => ?_
  split
  · rw [sat_bind]
    exact (resetStartOn_offered hroot).imp fun w' h' => h'
  · rw [sat_bind]
    refine (findOrNew_leaves w cls _).imp ?_
    rintro ⟨w₁, job⟩ h₁
    rw [sat_bind]
    refine (withJob_leaves w₁ _ job.id _).imp fun w₂ h₂ => ?_
    have hkeeps : KeepsStart Nobody w w₂ := (KeepsStart.of_classes h₁).after h₂
    split
    · trivial
    · rename_i cls₂ hget₂
      obtain hf | hsame := hkeeps.get hget hget₂
      · exact hf.elim
      · rw [sat_bind, sat_ok, sat_bind]
        refine (resetStartOn_offered (hsame.startOn.trans hroot)).imp fun w₃ h₃ => ?_
        have hid₂ : cls₂.id = cls.id := hsame.id
        rw [hid₂] at h₃
        refine .before hkeeps (h₃.imp fun cls₃ hsame₃ => ?_)
        have hreset : SameStart { cls with startOn := some (eventOperatorReset root) }
            { cls₂ with startOn := some (eventOperatorReset root) } :=
          ⟨hsame.id, hsame.config, rfl, hsame.wait⟩
        rw [hid₂] at hreset
        exact hreset.trans hsame₃

/-! ## A class that waits has to be started -/

/-- The condition of the class is true. -/
def ClassState.satisfied (cls : ClassState) : Bool := cls.startOn.any EventOperator.value

/-- A class waits for the cgroup manager exactly when its condition is true. -/
structure WaitSound (cls : ClassState) : Prop where
  consistent : ∀ root, cls.startOn = some root → root.Consistent
  wait : cls.cgmanagerWait = cls.satisfied
  cgroups : cls.cgmanagerWait = true → cls.config.cgroups = true

theorem SameStart.waitSound {cls cls' : ClassState} (h : SameStart cls cls') (hw : WaitSound cls) :
    WaitSound cls' := by
  refine ⟨?_, ?_, ?_⟩
  · rw [h.startOn]
    exact hw.consistent
  · rw [h.wait, ClassState.satisfied, h.startOn]
    exact hw.wait
  · rw [h.wait, h.config]
    exact hw.cgroups

theorem KeepsStart.waitSound (h : KeepsStart P w w') (hP : ∀ cls, P cls → WaitSound cls)
    (hw : ∀ cls ∈ w.classes.items, WaitSound cls) : ∀ cls ∈ w'.classes.items, WaitSound cls := by
  intro cls' hcls'
  rcases h cls' hcls' with hp | ⟨cls, hcls, hsame⟩
  · exact hP cls' hp
  · exact hsame.waitSound (hw cls hcls)

theorem Offered.waitSound (h : Offered c WaitSound w w')
    (hw : ∀ cls ∈ w.classes.items, WaitSound cls) : ∀ cls ∈ w'.classes.items, WaitSound cls := by
  intro cls' hcls'
  rcases h.others cls' hcls' with hid | ⟨cls, hcls, hsame⟩
  · exact h.own cls' (hid ▸ Store.get?_of_mem hcls')
  · exact hsame.waitSound (hw cls hcls)

/-- A class whose condition has been reset does not wait. -/
theorem waitSound_reset {cls : ClassState} {root : EventOperator}
    (hroot : cls.startOn = some (eventOperatorReset root)) (hwait : cls.cgmanagerWait = false) :
    WaitSound cls := by
  refine ⟨?_, ?_, ?_⟩
  · intro r hr
    rw [hroot] at hr
    cases hr
    exact EventOperator.consistent_reset root
  · rw [hwait, ClassState.satisfied, hroot, Option.any_some, EventOperator.value_reset]
  · rw [hwait]
    intro hf
    cases hf

/-- An event that matches no leaf changes nothing. -/
theorem handle_of_no_match (x : Host) (event : Event) {root : EventOperator}
    (hc : root.Consistent) (h : (eventOperatorHandle x event [] root).2 = 0) :
    (eventOperatorHandle x event [] root).1 = root := by
  induction root with
  | eventMatch name env v ev =>
    simp only [eventOperatorHandle] at h ⊢
    split at h
    · cases h
    · rename_i hno
      rw [if_neg hno]
  | eventAnd v l r ihl ihr =>
    obtain ⟨hv, hl, hr⟩ := hc
    simp only [eventOperatorHandle, Nat.add_eq_zero_iff] at h
    simp only [eventOperatorHandle, ihl hl h.1, ihr hr h.2, updateAnd, ← hv]
  | eventOr v l r ihl ihr =>
    obtain ⟨hv, hl, hr⟩ := hc
    simp only [eventOperatorHandle, Nat.add_eq_zero_iff] at h
    simp only [eventOperatorHandle, ihl hl h.1, ihr hr h.2, updateOr, ← hv]

/-- The effect of an event on a condition, with the blocks left out. -/
theorem handleOperator_tree (x : Host) (sys : Sys) (root : EventOperator) (event : Event) :
    Sat (handleOperator x sys root event [])
      (fun r => r.2.1 = (eventOperatorHandle x event [] root).1 ∧
        r.2.2 = ((eventOperatorHandle x event [] root).2 != 0)) (fun _ => True) := by
  unfold handleOperator
  dsimp only
  rw [sat_bind]
  exact (sat_true (m := blockAll _ _)).imp fun sys' _ => ⟨rfl, rfl⟩

theorem offerStartOn_offered {cls : ClassState} {root : EventOperator} {event : Event}
    (hconsistent : root.Consistent) (hfalse : root.value = false)
    (hwait : cls.cgmanagerWait = false) :
    Sat (offerStartOn x w cls root event) (fun r => Offered cls.id WaitSound w r.1)
      (fun _ => True) := by
  unfold offerStartOn
  rw [sat_bind]
  refine (handleOperator_tree x w.sys root event).imp ?_
  rintro ⟨sys, root', matched⟩ ⟨rfl, rfl⟩
  dsimp only
  split
  · have hput := Offered.putSys (w := w) (c := cls.id) (Q := fun _ => True)
      (sys.act (.offeredStart event.id cls.id))
      (show ({ cls with startOn := some (eventOperatorHandle x event [] root).1 } :
        ClassState).id = cls.id from rfl) trivial
    refine (jobClassInductJob_offered (c := cls.id) Store.get?_put_self rfl).imp fun r hr => ?_
    exact (hput.trans hr.ofSys).imp fun cls' hsame => hsame.waitSound (waitSound_reset rfl hwait)
  · rename_i hno
    refine Offered.putSys _ rfl (WaitSound.mk ?_ ?_ ?_)
    · rintro r ⟨⟩
      exact EventOperator.consistent_handle x event [] root
    · show cls.cgmanagerWait = (eventOperatorHandle x event [] root).1.value
      rw [hwait]
      by_contra hne
      have htrue : (eventOperatorHandle x event [] root).1.value = true := by
        cases hv : (eventOperatorHandle x event [] root).1.value with
        | true => rfl
        | false => exact absurd hv.symm hne
      have hzero : (eventOperatorHandle x event [] root).2 = 0 := by
        simpa [htrue] using hno
      rw [handle_of_no_match x event hconsistent hzero, hfalse] at htrue
      cases htrue
    · intro hf
      rw [hwait] at hf
      cases hf

/-- While the class waits for the cgroup manager, an event that matches a part of its
condition makes it true. -/
def Completes (x : Host) (event : Event) (cls : ClassState) : Prop :=
  x.cgroupManagerAvailable = false → cls.config.cgroups = true → cls.cgmanagerWait = false →
    ∀ root, cls.startOn = some root → (eventOperatorHandle x event [] root).2 ≠ 0 →
      (eventOperatorHandle x event [] root).1.value = true

theorem SameStart.completes {cls cls' : ClassState} {event : Event} (h : SameStart cls cls')
    (hc : Completes x event cls) : Completes x event cls' := by
  unfold Completes
  rw [h.config, h.wait, h.startOn]
  exact hc

theorem WaitSound.value_eq {cls : ClassState} {root : EventOperator} (h : WaitSound cls)
    (hroot : cls.startOn = some root) : root.value = cls.cgmanagerWait := by
  rw [h.wait, ClassState.satisfied, hroot, Option.any_some]

theorem awaitCgroupManager_offered {cls : ClassState} {root : EventOperator} {event : Event}
    (hget : w.classes.get? cls.id = some cls) (hw : WaitSound cls)
    (hroot : cls.startOn = some root) (hcgroups : cls.config.cgroups = true)
    (hno : x.cgroupManagerAvailable = false) (hc : Completes x event cls) :
    Sat (awaitCgroupManager x w cls root event) (Offered cls.id WaitSound w) (fun _ => True) := by
  unfold awaitCgroupManager
  split
  · refine ⟨.of_classes rfl, fun cls' hget' => ?_⟩
    rw [hget] at hget'
    cases hget'
    exact hw
  · rename_i hwait
    have hwait' : cls.cgmanagerWait = false := by simpa using hwait
    rw [sat_bind]
    refine (handleOperator_tree x w.sys root event).imp ?_
    rintro ⟨sys, root', matched⟩ ⟨rfl, rfl⟩
    refine Offered.putSys _ rfl (WaitSound.mk ?_ ?_ fun _ => hcgroups)
    · rintro r ⟨⟩
      exact EventOperator.consistent_handle x event [] root
    · show ((eventOperatorHandle x event [] root).2 != 0) =
        (eventOperatorHandle x event [] root).1.value
      by_cases hzero : (eventOperatorHandle x event [] root).2 = 0
      · rw [handle_of_no_match x event (hw.consistent root hroot) hzero, hzero,
          hw.value_eq hroot, hwait']
        rfl
      · rw [hc hno hcgroups hwait' root hroot hzero]
        simpa using hzero

theorem handleStartOn_offered {cls : ClassState} {event : Event}
    (hget : w.classes.get? c = some cls) (hw : WaitSound cls) (hc : Completes x event cls) :
    Sat (handleStartOn x w c event) (fun r => Offered c WaitSound w r.1) (fun _ => True) := by
  have hid : cls.id = c := Store.key_of_get? hget
  subst hid
  have hsame : Offered cls.id WaitSound w w := by
    refine ⟨.of_classes rfl, fun cls' hget' => ?_⟩
    rw [hget] at hget'
    cases hget'
    exact hw
  have hoffer : ∀ root, cls.startOn = some root → cls.cgmanagerWait = false →
      Sat (offerStartOn x w cls root event) (fun r => Offered cls.id WaitSound w r.1)
        (fun _ => True) := fun root hroot hwait =>
    offerStartOn_offered (hw.consistent root hroot) ((hw.value_eq hroot).trans hwait) hwait
  unfold handleStartOn World.getClass
  simp only [hget]
  rw [sat_bind, sat_ok]
  split
  · exact hsame
  · rename_i root hroot
    split
    · rename_i hno
      refine hoffer root hroot ?_
      -- only a class with cgroups waits
      cases hwait : cls.cgmanagerWait with
      | false => rfl
      | true =>
        rw [hw.cgroups hwait] at hno
        cases hno
    · rename_i hcgroups
      have hcgroups' : cls.config.cgroups = true := by simpa using hcgroups
      split
      · rename_i hno
        rw [sat_bind]
        exact (awaitCgroupManager_offered hget hw hroot hcgroups' (by simpa using hno) hc).imp
          fun w' h' => h'
      · split
        · rename_i hwait
          exact hoffer root hroot (by simpa using hwait)
        · rw [sat_bind]
          have hroot' : ({ cls with cgmanagerWait := false } : ClassState).startOn = some root := hroot
          refine (resetStartOn_put hroot').imp ?_
          rintro _ ⟨sys, rfl⟩
          have hput := Offered.putSys (w := w) (c := cls.id) (Q := fun _ => True) sys
            (show ({ cls with
                startOn := some (eventOperatorReset root)
                cgmanagerWait := false } : ClassState).id = cls.id from rfl) trivial
          exact (offerStartOn_offered (EventOperator.consistent_reset root)
            (EventOperator.value_reset root) rfl).imp fun r hr => hput.trans hr

end Startup
