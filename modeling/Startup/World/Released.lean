import Startup.World.Conf
import Startup.World.Replacing

/-!
# What becomes of the class of a file that is destroyed

The functions of `Startup.World.Conf` change no file but the one that they are called for, and free
no instances but those of the classes that they free.

* `World.Released`: a class is freed, or it has instances;
* `Shrinks`: a class that is released stays so, and new classes get new addresses;
* `confFileDestroy_released`: the class of a file that is destroyed is released.
-/

namespace Startup

open Lib

/-- The class has been freed, or has instances. -/
def World.Released (w : World) (c : ClassId) : Prop :=
  w.classes.get? c = none ∨ w.instances c ≠ []

/-- The sources are the same, and a class that is released stays so. -/
structure Shrinks (w w' : World) : Prop where
  sources : w'.sources = w.sources
  last : w.lastClass ≤ w'.lastClass
  released : ∀ c ≤ w.lastClass, w.Released c → w'.Released c

/-- The classes, instances and files are the same ones. -/
structure SameObjects (w w' : World) : Prop where
  sources : w'.sources = w.sources
  last : w'.lastClass = w.lastClass
  jobs : w'.jobs = w.jobs
  files : w'.files = w.files
  classes : ∀ c, w'.classes.get? c = none ↔ w.classes.get? c = none

variable {x : Host} {w w' w'' : World} {c : ClassId} {cls : ClassState}

theorem Shrinks.refl (w : World) : Shrinks w w := ⟨rfl, Nat.le_refl _, fun _ _ h => h⟩

theorem Shrinks.trans (h : Shrinks w w') (h' : Shrinks w' w'') : Shrinks w w'' where
  sources := h'.sources.trans h.sources
  last := Nat.le_trans h.last h'.last
  released c hc hr := h'.released c (Nat.le_trans hc h.last) (h.released c hc hr)

theorem shrinks_setFiles (w : World) (files : List ConfFile) :
    Shrinks w { w with files := files } :=
  ⟨rfl, Nat.le_refl _, fun _ _ h => h⟩

theorem SameObjects.refl (w : World) : SameObjects w w := ⟨rfl, rfl, rfl, rfl, fun _ => Iff.rfl⟩

theorem SameObjects.trans (h : SameObjects w w') (h' : SameObjects w' w'') :
    SameObjects w w'' where
  sources := h'.sources.trans h.sources
  last := h'.last.trans h.last
  jobs := h'.jobs.trans h.jobs
  files := h'.files.trans h.files
  classes c := (h'.classes c).trans (h.classes c)

theorem SameObjects.shrinks (h : SameObjects w w') : Shrinks w w' where
  sources := h.sources
  last := Nat.le_of_eq h.last.symm
  released c _ hr := by
    have hinstances : w'.instances c = w.instances c := by
      rw [World.instances, World.instances, h.jobs]
    rwa [World.Released, h.classes, hinstances]

theorem OnlyTable.sameObjects (h : OnlyTable w w') : SameObjects w w' := by
  obtain ⟨registered, rfl⟩ := h
  exact ⟨rfl, rfl, rfl, rfl, fun _ => Iff.rfl⟩

theorem sameObjects_setSys (w : World) (sys : Sys) : SameObjects w (w.setSys sys) :=
  ⟨rfl, rfl, rfl, rfl, fun _ => Iff.rfl⟩

/-- A class is written where there is one. -/
theorem sameObjects_putClass (hget : w.classes.get? cls.id ≠ none) :
    SameObjects w (w.putClass cls) where
  sources := rfl
  last := rfl
  jobs := rfl
  files := rfl
  classes c := by
    by_cases hc : c = cls.id
    · subst hc
      have hput : (w.putClass cls).classes.get? cls.id = some cls := Store.get?_put_self
      rw [hput]
      simp [hget]
    · have hput : (w.putClass cls).classes.get? c = w.classes.get? c := Store.get?_put_ne hc
      rw [hput]

/-! ## Each function -/

theorem resetStartOn_same (hget : w.classes.get? cls.id ≠ none) :
    Sat (resetStartOn w cls) (fun w' => SameObjects w w') (fun _ => True) := by
  unfold resetStartOn
  split
  · exact .refl w
  · rename_i root _
    rw [sat_bind]
    refine (sat_true (m := resetOperator w.sys root)).imp fun r _ => ?_
    exact (sameObjects_setSys w r.1).trans (sameObjects_putClass hget)

theorem jobClassEventBlock_same (x : Host) (w : World) (old new : ClassId) :
    Sat (jobClassEventBlock x w old new) (fun w' => SameObjects w w') (fun _ => True) := by
  unfold jobClassEventBlock
  rw [sat_bind]
  refine (sat_true (m := w.getClass _ old)).imp fun oldClass _ => ?_
  rw [sat_bind]
  refine (getClass_sat rfl).mono (fun newClass hnew => ?_) fun _ _ => trivial
  split
  · rename_i oldRoot newRoot _ _
    split
    · rw [sat_bind]
      refine (sat_true (m := oldRoot.refs.foldlM (blockMatched x) (w.sys, newRoot))).imp
        fun r _ => ?_
      refine (sameObjects_setSys w r.1).trans (sameObjects_putClass ?_)
      show w.classes.get? newClass.id ≠ none
      rw [hnew.2, hnew.1]
      nofun
    · exact .refl w
  · exact .refl w

theorem jobClassRemove_onlyTable (w : World) (cls : ClassState) :
    OnlyTable w (jobClassRemove w cls).1 := by
  unfold jobClassRemove
  split
  · exact ⟨_, rfl⟩
  · exact ⟨_, rfl⟩

theorem jobClassConsider_same (x : Host) (w : World) (c : ClassId) :
    Sat (jobClassConsider x w c) (fun r => SameObjects w r.1) (fun _ => True) := by
  unfold jobClassConsider
  rw [sat_bind]
  refine (sat_true (m := w.getClass _ c)).imp fun cls _ => ?_
  rw [sat_bind]
  refine (sat_true (m := confSelectJob w cls.config.name)).imp fun best _ => ?_
  cases best with
  | none => trivial
  | some best =>
    dsimp only
    split
    · rw [sat_bind]
      exact (jobClassAdd_onlyTable w (some best)).imp fun w' h => h.sameObjects
    · rename_i old _
      split
      · exact .refl w
      · rw [sat_bind]
        refine (jobClassEventBlock_same x w old best).imp fun w₁ h₁ => ?_
        rw [sat_bind]
        refine (sat_true (m := w₁.getClass _ old)).imp fun oldClass _ => ?_
        have hremove := (jobClassRemove_onlyTable w₁ oldClass).sameObjects
        split
        · rename_i w₂ heq
          rw [heq] at hremove
          rw [sat_bind]
          exact (jobClassAdd_onlyTable w₂ (some best)).imp fun w₃ h₃ =>
            h₁.trans (hremove.trans h₃.sameObjects)
        · rename_i w₂ heq
          rw [heq] at hremove
          rw [sat_bind]
          refine (getClass_sat rfl).mono (fun bestClass hbest => ?_) fun _ _ => trivial
          rw [sat_bind]
          refine (resetStartOn_same ?_).imp fun w₃ h₃ => h₁.trans (hremove.trans h₃)
          rw [hbest.2, hbest.1]
          nofun

theorem considerParsed_same (x : Host) (w : World) (job : Option ClassId) :
    Sat (considerParsed x w job) (fun w' => SameObjects w w') (fun _ => True) := by
  unfold considerParsed
  split
  · exact .refl w
  · rename_i c
    rw [sat_bind]
    exact (jobClassConsider_same x w c).imp fun r h => h

theorem jobClassReconsider_same (w : World) (c : ClassId) :
    Sat (jobClassReconsider w c) (fun r => SameObjects w r.1) (fun _ => True) :=
  (jobClassReconsider_onlyTable w c).imp fun _ h => h.sameObjects

/-- A class that is freed takes only its own instances with it. -/
theorem freeClass_shrinks (w : World) (cls : ClassState) :
    Sat (freeClass w cls)
      (fun w' => Shrinks w w' ∧ w'.files = w.files ∧ w'.classes.get? cls.id = none)
      (fun _ => True) := by
  unfold freeClass
  rw [sat_bind]
  refine (sat_true (m := destroyOperator w.sys cls.startOn)).imp fun sys₁ _ => ?_
  rw [sat_bind]
  refine (sat_true (m := destroyOperator sys₁ cls.stopOn)).imp fun sys₂ _ => ?_
  rw [sat_bind]
  refine (sat_true (m := (w.instances cls.id).foldlM
    (fun sys job => destroyOperator sys job.stopOn) sys₂)).imp fun sys₃ _ => ?_
  refine ⟨⟨rfl, Nat.le_refl _, ?_⟩, rfl, Store.get?_erase_self⟩
  intro c _ hreleased
  by_cases hc : c = cls.id
  · left
    rw [hc]
    exact Store.get?_erase_self
  · have hinstances : (w.jobs.filter fun job => job.classId ≠ cls.id).items.filter
        (fun job => job.classId = c) = w.instances c := by
      rw [World.instances, Store.filter, List.filter_filter]
      refine List.filter_congr fun job _ => ?_
      by_cases hjob : job.classId = c
      · simp [hjob, hc]
      · simp [hjob]
    rcases hreleased with hnone | hsome
    · left
      exact (Store.get?_erase_ne hc).trans hnone
    · right
      show (w.jobs.filter fun job => job.classId ≠ cls.id).items.filter
        (fun job => job.classId = c) ≠ []
      rw [hinstances]
      exact hsome

/-- The parser makes a new class, or changes the one that it is given. -/
theorem parseJob_shrinks (w : World) (update : Option ClassId) (name : String)
    (parsed : Parsed) : Sat (parseJob w update name parsed)
      (fun r => Shrinks w r.1 ∧ r.1.files = w.files ∧ ∀ c, r.2 = some c →
        (update = none → w.lastClass < c ∧ c ≤ r.1.lastClass) ∧ ∀ c', update = some c' → c = c')
      (fun _ => True) := by
  unfold parseJob
  split
  · split
    · refine ⟨⟨rfl, Nat.le_succ _, ?_⟩, rfl, ?_⟩
      · intro c hc hreleased
        rcases hreleased with hnone | hsome
        · left
          have hne : c ≠ w.lastClass + 1 := Nat.ne_of_lt (Nat.lt_succ_of_le hc)
          exact (Store.get?_put_ne hne).trans hnone
        · right
          exact hsome
      · intro c hc
        obtain rfl := Option.some.inj hc
        exact ⟨fun _ => ⟨Nat.lt_succ_self _, Nat.le_refl _⟩, nofun⟩
    · exact ⟨.refl w, rfl, nofun⟩
  · rename_i c
    rw [sat_bind]
    refine (getClass_sat rfl).mono (fun cls hcls => ?_) fun _ _ => trivial
    rw [sat_bind]
    refine (sat_true (m := parseOn w.sys cls.startOn parsed.startOn)).imp fun r₁ _ => ?_
    rw [sat_bind]
    refine (sat_true (m := parseOn r₁.1 cls.stopOn parsed.stopOn)).imp fun r₂ _ => ?_
    have hget : (w.setSys r₂.1).classes.get? cls.id ≠ none := by
      show w.classes.get? cls.id ≠ none
      rw [hcls.2, hcls.1]
      nofun
    have hput : SameObjects (w.setSys r₂.1) ((w.setSys r₂.1).putClass
        { cls with
          config := { parsed.config with name := cls.config.name }
          startOn := r₁.2
          stopOn := r₂.2 }) := sameObjects_putClass hget
    have hsame := (sameObjects_setSys w r₂.1).trans hput
    refine ⟨hsame.shrinks, hsame.files, ?_⟩
    intro c' hc'
    dsimp only at hc'
    split at hc'
    · obtain rfl := Option.some.inj hc'
      exact ⟨nofun, fun c'' h => Option.some.inj h⟩
    · cases hc'

/-! ## The class of a file -/

/-- What is selected for a name is the class of a file. -/
theorem confSelectJob_mem (w : World) (name : String) :
    Sat (confSelectJob w name) (fun best => ∀ c, best = some c → ∃ file ∈ w.files, file.job = some c)
      (fun _ => True) := by
  unfold confSelectJob
  induction w.files with
  | nil => exact nofun
  | cons file files ih =>
    have hrest : Sat (selectFrom w name files)
        (fun best => ∀ c, best = some c → ∃ file' ∈ file :: files, file'.job = some c)
        (fun _ => True) := by
      refine ih.imp fun best hbest c hc => ?_
      obtain ⟨file', hmem, hjob⟩ := hbest c hc
      exact ⟨file', List.mem_cons_of_mem _ hmem, hjob⟩
    rw [selectFrom]
    split
    · exact hrest
    · rename_i c hjob
      rw [sat_bind]
      refine (sat_true (m := w.getClass _ c)).imp fun cls _ => ?_
      split
      · intro c' hc'
        obtain rfl := Option.some.inj hc'
        exact ⟨file, List.mem_cons_self, hjob⟩
      · exact hrest

/-- A class that no file has stays registered for its instances only. -/
theorem jobClassReconsider_released (w : World) (c : ClassId) :
    Sat (jobClassReconsider w c)
      (fun r => SameObjects w r.1 ∧ ((∀ file ∈ w.files, file.job ≠ some c) → r.2 = false →
        r.1.instances c ≠ [])) (fun _ => True) := by
  refine ((jobClassReconsider_same w c).and (?_ : Sat (jobClassReconsider w c)
    (fun r => (∀ file ∈ w.files, file.job ≠ some c) → r.2 = false → r.1.instances c ≠ [])
      (fun _ => True))).mono (fun _ h => h) fun _ _ => trivial
  unfold jobClassReconsider
  rw [sat_bind]
  refine (getClass_sat rfl).mono (fun cls hcls => ?_) fun _ _ => trivial
  rw [sat_bind]
  refine (confSelectJob_mem w cls.config.name).imp fun best hbest => ?_
  split
  · split
    · rename_i hc
      intro hnone
      obtain ⟨file, hmem, hjob⟩ := hbest c hc
      exact absurd hjob (hnone file hmem)
    · unfold jobClassRemove
      split
      · rename_i w₁ hremove
        rw [sat_bind]
        exact (sat_true (m := jobClassAdd w₁ best)).imp fun w₂ _ => nofun
      · rename_i w₁ hremove
        split at hremove
        · cases hremove
        · rename_i hempty
          cases hremove
          intro _ _ hnil
          rw [hcls.2, hnil] at hempty
          exact hempty rfl
  · exact nofun

/-- The class of a file that is destroyed is freed, or it has instances, if no other file has
it. -/
theorem confFileDestroy_released (w : World) (file : ConfFile) :
    Sat (confFileDestroy w file)
      (fun w' => Shrinks w w' ∧ w'.files = w.files ∧ ∀ c, file.job = some c →
        (∀ other ∈ w.files, other.job ≠ some c) → w'.Released c) (fun _ => True) := by
  unfold confFileDestroy
  split
  · rename_i hjob
    refine ⟨.refl w, rfl, ?_⟩
    intro c hc
    rw [hjob] at hc
    cases hc
  · rename_i c hjob
    rw [sat_bind]
    refine (getClass_sat rfl).mono (fun cls hcls => ?_) fun _ _ => trivial
    have hid : ({ cls with deleted := true } : ClassState).id = c := hcls.2
    have hget : w.classes.get? ({ cls with deleted := true } : ClassState).id ≠ none := by
      rw [hid, hcls.1]
      nofun
    have hput := sameObjects_putClass hget
    dsimp only
    rw [sat_bind]
    refine (jobClassReconsider_released (w.putClass { cls with deleted := true }) c).imp
      fun r hr => ?_
    have hsame := hput.trans hr.1
    split
    · refine (freeClass_shrinks r.1 { cls with deleted := true }).imp fun w' hfree => ?_
      refine ⟨hsame.shrinks.trans hfree.1, hfree.2.1.trans hsame.files, ?_⟩
      intro c' hc' _
      rw [hjob] at hc'
      obtain rfl := Option.some.inj hc'
      left
      rw [← hid]
      exact hfree.2.2
    · rename_i hunused
      refine ⟨hsame.shrinks, hsame.files, ?_⟩
      intro c' hc' hothers
      rw [hjob] at hc'
      obtain rfl := Option.some.inj hc'
      right
      exact hr.2 hothers (by simpa using hunused)

end Startup
