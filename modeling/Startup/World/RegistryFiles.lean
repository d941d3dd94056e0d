import Startup.World.Loading
import Startup.World.Registry

/-!
# The table of classes after a file is read or deleted

* the table: `job_class_reconsider` and `job_class_consider` put the chosen class of a
  name back into it;
* the classes and jobs that are freed: `jobDestroy_registry`, `withJob_registry`;
* the files: `confReloadPath_registry` and what is made of it.
-/

namespace Startup

open Lib

variable {k : Slack} {x : Host} {w w' w'' : World} {c : ClassId} {out : List ClassId}
  {fresh : Option String}

/-- The files and the instances are as they were. -/
structure Untouched (w w' : World) : Prop where
  files : w'.files = w.files
  jobs : w'.jobs = w.jobs

theorem Untouched.refl (w : World) : Untouched w w := ⟨rfl, rfl⟩

theorem Untouched.trans (h : Untouched w w') (h' : Untouched w' w'') : Untouched w w'' :=
  ⟨h'.files.trans h.files, h'.jobs.trans h.jobs⟩

/-! ## The table -/

/-- The class is not registered, and has no instances. -/
structure Unused (w : World) (c : ClassId) : Prop where
  table : ∀ n, w.getRegistered n ≠ some c
  instances : w.instances c = []

/-- Only the table of classes is written. -/
theorem Registry.setRegistered (h : Registry out fresh w) {table : Store Registration}
    (hchosen : ∀ n c, (table.get? n).map Registration.cls = some c → w.instances c = [] →
      c ∉ out → w.select n = some c)
    (hmissing : ∀ n, (table.get? n).map Registration.cls = none → w.select n = none) :
    Registry out none { w with registered := table } :=
  ⟨h.known, h.owners, h.paths, fun n c hreg hempty _ hc => hchosen n c hreg hempty hc,
    fun n hreg _ => hmissing n hreg, h.held⟩

theorem Registry.forName (h : Registry out none w) (n : String) : Registry out (some n) w :=
  ⟨h.known, h.owners, h.paths, fun m c hreg hempty _ hc => h.chosen m c hreg hempty (by simp) hc,
    fun m hreg _ => h.missing m hreg (by simp), h.held⟩

/-- The name of which a file has been read is in order again. -/
theorem Registry.considered {n : String} (h : Registry out (some n) w)
    (hchosen : ∀ c, w.getRegistered n = some c → w.instances c = [] → w.select n = some c)
    (hmissing : w.getRegistered n = none → w.select n = none) : Registry out none w := by
  refine ⟨h.known, h.owners, h.paths, fun m c hreg hempty _ hc => ?_, fun m hreg _ => ?_, h.held⟩
  · by_cases hm : m = n
    · subst hm
      exact hchosen c hreg hempty
    · exact h.chosen m c hreg hempty (fun heq => hm (Option.some.inj heq)) hc
  · by_cases hm : m = n
    · subst hm
      exact hmissing hreg
    · exact h.missing m hreg fun heq => hm (Option.some.inj heq)

/-- The class that lost its file or an instance is in order again. -/
theorem Registry.settled (h : Registry (c :: out) fresh w)
    (hchosen : ∀ n, w.getRegistered n = some c → w.instances c = [] → w.select n = some c)
    (hheld : ∀ cls, w.classes.get? c = some cls →
      w.attached c ∨ cls.deleted = true ∧ w.instances c ≠ []) : Registry out fresh w := by
  refine ⟨h.known, h.owners, h.paths, fun n c' hreg hempty hn hout => ?_, h.missing,
    fun cls hcls hout => ?_⟩
  · by_cases hc : c' = c
    · subst hc
      exact hchosen n hreg hempty
    · exact h.chosen n c' hreg hempty hn (List.not_mem_cons_of_ne_of_not_mem hc hout)
  · by_cases hc : cls.id = c
    · have hget := Store.get?_of_mem hcls
      rw [show key cls = cls.id from rfl, hc] at hget
      rw [hc]
      exact hheld cls hget
    · exact h.held cls hcls (List.not_mem_cons_of_ne_of_not_mem hc hout)

/-- A class without instances leaves the table. -/
theorem Registry.unregister {n : String} (h : Registry out (some n) w) :
    Registry out (some n) { w with registered := w.registered.erase n } := by
  refine ⟨h.known, h.owners, h.paths, fun m c hreg hempty hm hc => ?_, fun m hreg hm => ?_, h.held⟩
  · have hne : m ≠ n := fun heq => hm (congrArg some heq)
    refine h.chosen m c ?_ hempty hm hc
    rwa [World.getRegistered, Store.get?_erase_ne hne] at hreg
  · have hne : m ≠ n := fun heq => hm (congrArg some heq)
    refine h.missing m ?_ hm
    rwa [World.getRegistered, Store.get?_erase_ne hne] at hreg

/-- The chosen class is added under a name that is free. -/
theorem jobClassAdd_registry {n : String} (h : Registry out (some n) w)
    (hnone : w.getRegistered n = none) :
    Sat (jobClassAdd w (w.select n))
      (fun w' => OnlyTable w w' ∧ Registry out none w' ∧ w'.getRegistered n = w.select n ∧
        ∀ m, m ≠ n → w'.getRegistered m = w.getRegistered m) (fun _ => True) := by
  unfold jobClassAdd
  cases hselect : w.select n with
  | none => exact ⟨⟨_, rfl⟩, h.considered (fun c hc => by simp [hnone] at hc) fun _ => hselect, hnone,
      fun _ _ => rfl⟩
  | some b =>
    obtain ⟨-, cls, hcls, rfl⟩ := select_eq_some hselect
    simp only [World.getClass, hcls]
    rw [sat_bind, sat_ok, sat_ok]
    have hself : (w.registered.put ⟨cls.config.name, b⟩).get? cls.config.name =
        some ⟨cls.config.name, b⟩ := Store.get?_put_self
    have hother : ∀ m, m ≠ cls.config.name →
        (w.registered.put ⟨cls.config.name, b⟩).get? m = w.registered.get? m :=
      fun m hm => Store.get?_put_ne hm
    refine ⟨⟨_, rfl⟩, h.setRegistered (fun m c hreg hempty hc => ?_) fun m hreg => ?_, ?_,
      fun m hm => ?_⟩
    · by_cases hm : m = cls.config.name
      · subst hm
        rw [hself] at hreg
        cases hreg
        exact hselect
      · rw [hother m hm] at hreg
        exact h.chosen m c hreg hempty (fun heq => hm (Option.some.inj heq)) hc
    · by_cases hm : m = cls.config.name
      · subst hm
        rw [hself] at hreg
        cases hreg
      · rw [hother m hm] at hreg
        exact h.missing m hreg fun heq => hm (Option.some.inj heq)
    · exact congrArg (Option.map Registration.cls) hself
    · exact congrArg (Option.map Registration.cls) (hother m hm)

/-- The class is afterwards the one that is chosen, or has instances, or is not in use. -/
theorem jobClassReconsider_registry (hh : Housing w.classes w.registered w.jobs)
    (h : Registry [c] none w)
    (hc : ∀ cls, w.classes.get? c = some cls → w.attached c ∨ cls.deleted = true) :
    Sat (jobClassReconsider w c)
      (fun r => OnlyTable w r.1 ∧ Registry [c] none r.1 ∧
        (r.2 = false → Registry [] none r.1) ∧ (r.2 = true → Unused r.1 c))
      (fun _ => True) := by
  unfold jobClassReconsider
  rw [sat_bind]
  refine (getClass_sat rfl).mono ?_ fun _ _ => trivial
  rintro cls ⟨hcls, hid⟩
  rw [h.confSelectJob_eq, sat_bind, sat_ok]
  have hname : ∀ m, w.getRegistered m = some c → m = cls.config.name := by
    intro m hm
    obtain ⟨r, hr, rfl⟩ := Option.map_eq_some_iff.mp hm
    obtain ⟨cls', hcls', hn⟩ := hh.known r (Store.mem_of_get? hr)
    rw [hcls] at hcls'
    cases hcls'
    exact (Store.key_of_get? hr).symm.trans hn.symm
  split
  · rename_i hreg
    split
    · rename_i hbest
      refine ⟨⟨_, rfl⟩, h, fun _ => h.settled (fun m hm _ => ?_) fun cls' hcls' => ?_,
        fun hf => by cases hf⟩
      · rw [hname m hm]
        exact hbest
      · exact .inl (select_eq_some hbest).1
    · rename_i hne
      unfold jobClassRemove
      rw [hid]
      split
      · rename_i w₁ heq
        split at heq <;> cases heq
        rename_i hempty
        rw [sat_bind]
        have hnone : ({ w with registered := w.registered.erase cls.config.name } : World).getRegistered
            cls.config.name = none :=
          Option.map_eq_none_iff.mpr Store.get?_erase_self
        refine (jobClassAdd_registry (h.forName cls.config.name).unregister hnone).imp ?_
        rintro w₂ ⟨⟨table, rfl⟩, hr, hself, hother⟩
        refine ⟨⟨table, rfl⟩, hr, (fun hf => by cases hf), fun _ => ⟨fun m hm => ?_, ?_⟩⟩
        · by_cases hmn : m = cls.config.name
          · subst hmn
            exact hne (hself.symm.trans hm)
          · rw [hother m hmn, World.getRegistered, Store.get?_erase_ne hmn] at hm
            exact hmn (hname m hm)
        · exact List.isEmpty_iff.mp hempty
      · rename_i w₁ heq
        split at heq <;> cases heq
        rename_i hlive
        have hlive : w.instances c ≠ [] := fun hnil => hlive (by simp [hnil])
        refine ⟨⟨_, rfl⟩, h, fun _ => h.settled (fun m hm hnil => absurd hnil hlive)
          fun cls' hcls' => ?_, fun hf => by cases hf⟩
        exact (hc cls' hcls').imp_right fun hd => ⟨hd, hlive⟩
  · rename_i hreg
    refine ⟨⟨_, rfl⟩, h, (fun hf => by cases hf), fun _ => ⟨fun m hm => ?_, ?_⟩⟩
    · rw [hname m hm] at hm
      exact hreg hm
    · refine List.filter_eq_nil_iff.mpr fun job hj hclass => hreg ?_
      obtain ⟨cls', hcls', hr⟩ := hh.homes job hj
      have hjc : job.classId = c := by simpa using hclass
      rw [hjc] at hcls' hr
      rw [hcls] at hcls'
      cases hcls'
      exact hr

theorem jobClassEventBlock_tables {old new : ClassId} :
    Sat (jobClassEventBlock x w old new) (fun w' => SameTables w w' ∧ Untouched w w')
      (fun _ => True) := by
  unfold jobClassEventBlock
  rw [sat_bind]
  refine (sat_true (m := World.getClass _ _ _)).imp fun oldClass _ => ?_
  rw [sat_bind]
  refine (getClass_sat rfl).mono ?_ fun _ _ => trivial
  rintro newClass ⟨hnew, hid⟩
  subst hid
  split
  · split
    · rw [sat_bind]
      refine (sat_true (m := List.foldlM _ _ _)).imp fun r _ => ?_
      exact ⟨.putClass r.1 hnew rfl, rfl, rfl⟩
    · exact ⟨.refl w, .refl w⟩
  · exact ⟨.refl w, .refl w⟩

/-- The chosen class of the name is registered, unless the one that is there has instances. -/
theorem jobClassConsider_registry (hh : Housing w.classes w.registered w.jobs) {cls : ClassState}
    (hcls : w.classes.get? c = some cls) (h : Registry out (some cls.config.name) w) :
    Sat (jobClassConsider x w c) (fun r => Registry out none r.1 ∧ Untouched w r.1)
      (fun _ => True) := by
  unfold jobClassConsider
  simp only [World.getClass, hcls]
  rw [sat_bind, sat_ok, h.confSelectJob_eq, sat_bind, sat_ok]
  split
  · trivial
  · rename_i best hbest
    split
    · rename_i hnone
      rw [sat_bind, ← hbest]
      refine (jobClassAdd_registry h hnone).imp ?_
      rintro _ ⟨⟨table, rfl⟩, h₁, -⟩
      exact ⟨h₁, rfl, rfl⟩
    · rename_i old hold
      split
      · rename_i heq
        refine ⟨h.considered (fun c' hc' _ => ?_) fun hnone => ?_, .refl w⟩
        · rw [hbest, ← heq]
          exact hold.symm.trans hc'
        · rw [hnone] at hold
          cases hold
      · rw [sat_bind]
        refine jobClassEventBlock_tables.imp ?_
        rintro w₁ ⟨htables, hsame⟩
        have h₁ := htables.registry h
        have hselect := htables.select cls.config.name
        have hold₁ : w₁.getRegistered cls.config.name = some old := by
          rw [World.getRegistered, htables.registered]
          exact hold
        rw [sat_bind]
        refine (getClass_sat rfl).mono ?_ fun _ _ => trivial
        rintro oldClass ⟨hget, hid⟩
        subst hid
        have hname : oldClass.config.name = cls.config.name := by
          obtain ⟨r, hr, hrc⟩ := Option.map_eq_some_iff.mp hold
          obtain ⟨old', hold', hn⟩ := hh.known r (Store.mem_of_get? hr)
          obtain ⟨old₁, hget₁, hbrief⟩ := htables.get hget
          rw [hrc, hget₁] at hold'
          cases hold'
          exact ((congrArg Prod.fst hbrief).trans hn).trans (Store.key_of_get? hr)
        rw [← hname] at h₁ hselect hold₁ hbest
        unfold jobClassRemove
        by_cases hempty : (w₁.instances oldClass.id).isEmpty = true
        · rw [if_pos hempty]
          dsimp only
          have hnone : ({ w₁ with registered := w₁.registered.erase oldClass.config.name } :
              World).getRegistered oldClass.config.name = none :=
            Option.map_eq_none_iff.mpr Store.get?_erase_self
          rw [sat_bind, ← hbest, ← hselect]
          refine (jobClassAdd_registry h₁.unregister hnone).imp ?_
          rintro _ ⟨⟨table, rfl⟩, h₂, -⟩
          exact ⟨h₂, hsame.trans ⟨rfl, rfl⟩⟩
        · rw [if_neg hempty]
          dsimp only
          rw [sat_bind]
          refine (getClass_sat rfl).mono ?_ fun _ _ => trivial
          rintro bestClass ⟨hget₁, hid₁⟩
          subst hid₁
          have hconsidered : Registry out none w₁ := by
            refine h₁.considered (fun c' hc' hnil => ?_) fun hnone => ?_
            · rw [hold₁] at hc'
              cases hc'
              exact absurd (List.isEmpty_iff.mpr hnil) hempty
            · rw [hnone] at hold₁
              cases hold₁
          have hreset : Sat (resetStartOn w₁ bestClass) (Untouched w₁) (fun _ => True) := by
            unfold resetStartOn
            split
            · exact .refl w₁
            · rw [sat_bind]
              exact (sat_true (m := resetOperator _ _)).imp fun _ _ => ⟨rfl, rfl⟩
          rw [sat_bind]
          refine ((resetStartOn_tables bestClass hget₁ rfl).and hreset).mono ?_ fun _ _ => trivial
          rintro w₂ ⟨ht₂, hsame₂⟩
          exact ⟨ht₂.registry hconsidered, hsame.trans hsame₂⟩

/-! ## What is freed -/

/-- A class that has no file is freed. -/
theorem freeClass_registry (cls : ClassState) (h : Registry [cls.id] none w)
    (hun : Unused w cls.id) (hfile : ¬ w.attached cls.id) :
    Sat (freeClass w cls) (fun w' => Registry [] none w' ∧ Untouched w w') (fun _ => True) := by
  unfold freeClass
  rw [sat_bind]
  refine (sat_true (m := destroyOperator _ _)).imp fun sys₁ _ => ?_
  rw [sat_bind]
  refine (sat_true (m := destroyOperator _ _)).imp fun sys₂ _ => ?_
  rw [hun.instances, List.foldlM_nil, sat_bind, sat_pure]
  have hjobs : w.jobs.filter (fun job => job.classId ≠ cls.id) = w.jobs := by
    refine Store.ext (List.filter_eq_self.mpr fun job hj => ?_)
    simpa using List.filter_eq_nil_iff.mp hun.instances job hj
  rw [hjobs]
  have hother : ∀ file ∈ w.files, ∀ c, file.job = some c → c ≠ cls.id := by
    rintro file hf _ hjob rfl
    exact hfile ⟨file, hf, hjob⟩
  have hget : ∀ c, c ≠ cls.id → (w.classes.erase cls.id).get? c = w.classes.get? c :=
    fun c hc => Store.get?_erase_ne hc
  have hselect : ∀ n, World.select
      { w with sys := sys₂, classes := w.classes.erase cls.id, jobs := w.jobs } n = w.select n := by
    intro n
    refine select_congr rfl fun file hf => Option.ext fun c => ?_
    rw [candidate_eq_some, candidate_eq_some]
    refine and_congr_right fun hjob => ?_
    rw [show ({ w with sys := sys₂, classes := w.classes.erase cls.id, jobs := w.jobs } :
      World).classes.get? c = w.classes.get? c from hget c (hother file hf c hjob)]
  refine ⟨⟨fun file hf c hc => ?_, h.owners, h.paths, fun n c hreg hempty hn _ => ?_,
    fun n hreg hn => ?_, fun cls' hcls' _ => ?_⟩, rfl, rfl⟩
  · show ∃ cls', (w.classes.erase cls.id).get? c = some cls' ∧ cls'.deleted = false
    rw [hget c (hother file hf c hc)]
    exact h.known file hf c hc
  · rw [hselect]
    refine h.chosen n c hreg hempty hn fun heq => hun.table n ?_
    rwa [← List.mem_singleton.mp heq]
  · rw [hselect]
    exact h.missing n hreg hn
  · obtain ⟨hmem, hne⟩ := Store.mem_erase.mp hcls'
    exact h.held cls' hmem fun heq => hne (List.mem_singleton.mp heq)

/-- The class of a file is not deleted. -/
theorem Registry.not_attached (h : Registry out fresh w) {cls : ClassState}
    (hget : w.classes.get? cls.id = some cls) (hdeleted : cls.deleted = true) :
    ¬ w.attached cls.id := by
  rintro ⟨file, hf, hjob⟩
  obtain ⟨cls', hget', hlive⟩ := h.known file hf cls.id hjob
  rw [hget] at hget'
  cases hget'
  rw [hdeleted] at hlive
  cases hlive

/-- A job leaves its class, which may be in the table for its sake alone. -/
theorem Registry.eraseJob {job old : Job} (h : Registry [] none w)
    (hget : w.jobs.get? job.id = some old) (hclass : old.classId = job.classId) :
    Registry [job.classId] none { w with jobs := w.jobs.erase job.id } := by
  have hinstances : ∀ c, c ≠ job.classId →
      World.instances { w with jobs := w.jobs.erase job.id } c = w.instances c := by
    intro c hc
    show (w.jobs.items.filter _).filter _ = _
    rw [List.filter_filter]
    refine List.filter_congr fun j hj => ?_
    by_cases hid : j.id = job.id
    · have hold : j = old := Option.some.inj ((Store.get?_of_mem hj).symm.trans
        ((congrArg w.jobs.get? hid).trans hget))
      have hjc : j.classId ≠ c := by
        rw [hold, hclass]
        exact Ne.symm hc
      simp [hjc]
    · have hid' : key j ≠ job.id := hid
      simp [hid']
  refine ⟨h.known, h.owners, h.paths, fun n c hreg hempty hn hc => ?_, h.missing,
    fun cls hcls hc => ?_⟩
  · rw [hinstances c fun heq => hc (List.mem_singleton.mpr heq)] at hempty
    exact h.chosen n c hreg hempty hn (by simp)
  · rw [hinstances cls.id fun heq => hc (List.mem_singleton.mpr heq)]
    exact h.held cls hcls (by simp)

theorem jobDestroy_registry {job old : Job} (hh : Housing w.classes w.registered w.jobs)
    (h : Registry [] none w) (hget : w.jobs.get? job.id = some old)
    (hclass : old.classId = job.classId) :
    Sat (jobDestroy w job) (Registry [] none) (fun _ => True) := by
  have herase := h.eraseJob hget hclass
  have hheld : ∀ cls, w.classes.get? job.classId = some cls →
      w.attached job.classId ∨ cls.deleted = true := by
    intro cls hcls
    have hid : cls.id = job.classId := Store.key_of_get? hcls
    rw [← hid]
    exact (h.held cls (Store.mem_of_get? hcls) (by simp)).imp_right fun hlive => hlive.1
  have hhousing : Housing w.classes w.registered (w.jobs.erase job.id) :=
    ⟨fun j hj => hh.homes j (Store.mem_erase.mp hj).1, hh.known⟩
  unfold jobDestroy
  dsimp only
  rw [sat_bind]
  refine (jobClassReconsider_registry hhousing herase hheld).imp ?_
  rintro ⟨w₁, unused⟩ ⟨⟨table, rfl⟩, h₁, hkept, hunused⟩
  dsimp only at h₁ hkept hunused ⊢
  rw [sat_bind]
  refine (getClass_sat rfl).mono ?_ fun _ _ => trivial
  rintro cls ⟨hcls, hid⟩
  rw [sat_bind]
  refine (sat_true (m := destroyOperator _ _)).imp fun sys _ => ?_
  have hsys := SameTables.of_sys (w := { w with jobs := w.jobs.erase job.id, registered := table }) sys
  rw [← hid] at h₁ hunused hcls hheld
  split
  · rename_i hfree
    obtain ⟨hdeleted, hun⟩ := Bool.and_eq_true_iff.mp hfree
    have h₂ := hsys.registry h₁
    have hunused := hunused hun
    exact (freeClass_registry cls h₂ ⟨hunused.table, hunused.instances⟩
      (h₂.not_attached hcls hdeleted)).imp fun _ h' => h'.1
  · rename_i hkeep
    refine hsys.registry ?_
    cases unused with
    | false => exact hkept rfl
    | true =>
      have hun := hunused rfl
      refine h₁.settled (fun n hn _ => absurd hn (hun.table n)) fun cls' hcls' => ?_
      rw [hcls] at hcls'
      cases hcls'
      refine .inl ((hheld cls hcls).resolve_right fun hdeleted => hkeep ?_)
      rw [hdeleted]
      rfl

/-- The call is on the job and leaves it in its class. -/
def SameOwner (job : Job) (m : Except Fault (Sys × JobRef)) : Prop :=
  Sat m (fun r => r.2.job.id = job.id ∧ r.2.job.classId = job.classId) (fun _ => True)

theorem Framed.sameOwner {sys : Sys} {job : Job} {m : Except Fault (Sys × JobRef)}
    (h : Framed sys job m) : SameOwner job m :=
  Sat.mono h (fun _ hframe => ⟨hframe.ident, hframe.classId⟩) fun _ _ => trivial

theorem withJob_registry {fn : SourceFn} {id : JobId} {f : Sys → Job → Except Fault (Sys × JobRef)}
    (hh : Housing w.classes w.registered w.jobs) (h : Registry [] none w)
    (hf : ∀ job, w.jobs.get? id = some job → SameOwner job (f w.sys job)) :
    Sat (withJob w fn id f) (Registry [] none) (fun _ => True) := by
  unfold withJob
  cases hget : w.jobs.get? id with
  | none => trivial
  | some job =>
    dsimp only
    rw [sat_bind]
    refine Sat.imp (hf job hget) ?_
    have hid : job.id = id := Store.key_of_get? hget
    rintro ⟨sys, job' | job'⟩ ⟨hident, hclass⟩
    · refine (SameTables.putJob sys fun old hold => ?_).registry h
      rw [show job'.id = job.id from hident, hid, hget] at hold
      cases hold
      exact hclass.symm
    · have hold : (w.setSys sys).jobs.get? job'.id = some job := by
        rw [show job'.id = job.id from hident, hid]
        exact hget
      exact jobDestroy_registry hh ((SameTables.of_sys sys).registry h) hold hclass.symm

/-! ## Files -/

theorem confFileDestroy_registry {file : ConfFile} (hh : Housing w.classes w.registered w.jobs)
    (h : Registry file.job.toList none w) (hfile : ∀ c, file.job = some c → ¬ w.attached c) :
    Sat (confFileDestroy w file) (fun w' => Registry [] none w' ∧ Untouched w w')
      (fun _ => True) := by
  unfold confFileDestroy
  cases hjob : file.job with
  | none =>
    rw [hjob] at h
    exact ⟨h, .refl w⟩
  | some c =>
    rw [hjob] at h
    dsimp only
    rw [sat_bind]
    refine (getClass_sat rfl).mono ?_ fun _ _ => trivial
    rintro cls ⟨hcls, hid⟩
    subst hid
    have hself : (w.classes.put { cls with deleted := true }).get? cls.id =
        some { cls with deleted := true } := Store.get?_put_self
    have hother : ∀ c, c ≠ cls.id →
        (w.classes.put { cls with deleted := true }).get? c = w.classes.get? c :=
      fun c hc => Store.get?_put_ne hc
    have hattached := hfile cls.id hjob
    have hne : ∀ file ∈ w.files, ∀ c, file.job = some c → c ≠ cls.id := by
      rintro file' hf _ hjob' rfl
      exact hattached ⟨file', hf, hjob'⟩
    have hselect : ∀ n, (w.putClass { cls with deleted := true }).select n = w.select n := by
      intro n
      refine select_congr rfl fun file' hf => Option.ext fun c => ?_
      rw [candidate_eq_some, candidate_eq_some]
      refine and_congr_right fun hjob' => ?_
      rw [show (w.putClass { cls with deleted := true }).classes.get? c = w.classes.get? c from
        hother c (hne file' hf c hjob')]
    have hput : Registry [cls.id] none (w.putClass { cls with deleted := true }) := by
      refine ⟨fun file' hf c hc => ?_, h.owners, h.paths, fun n c hreg hempty hn hc => ?_,
        fun n hreg hn => ?_, fun cls' hcls' hc => ?_⟩
      · show ∃ cls', (w.classes.put _).get? c = some cls' ∧ cls'.deleted = false
        rw [hother c (hne file' hf c hc)]
        exact h.known file' hf c hc
      · rw [hselect]
        exact h.chosen n c hreg hempty hn hc
      · rw [hselect]
        exact h.missing n hreg hn
      · rcases Store.mem_put.mp hcls' with rfl | ⟨hmem, -⟩
        · exact absurd (List.mem_singleton.mpr rfl) hc
        · exact h.held cls' hmem hc
    have hhousing : Housing (w.classes.put { cls with deleted := true }) w.registered w.jobs := by
      obtain hnames := sameNames_put { cls with deleted := true } hcls rfl w.sys
      refine ⟨fun job hj => ?_, fun r hr => ?_⟩
      · obtain ⟨old, hold, hreg⟩ := hh.homes job hj
        obtain ⟨new, hnew, hname⟩ := hnames _ old hold
        exact ⟨new, hnew, hname ▸ hreg⟩
      · obtain ⟨old, hold, hname⟩ := hh.known r hr
        obtain ⟨new, hnew, hname'⟩ := hnames _ old hold
        exact ⟨new, hnew, hname'.trans hname⟩
    rw [sat_bind]
    refine (jobClassReconsider_registry hhousing hput fun cls' hcls' => .inr ?_).imp ?_
    · rw [show (w.putClass { cls with deleted := true }).classes.get? cls.id =
        some { cls with deleted := true } from hself] at hcls'
      cases hcls'
      rfl
    · rintro ⟨w₁, unused⟩ ⟨⟨table, rfl⟩, h₁, hkept, hunused⟩
      cases unused with
      | false => exact ⟨hkept rfl, rfl, rfl⟩
      | true =>
        refine (freeClass_registry { cls with deleted := true } h₁ (hunused rfl)
          hattached).imp fun w₂ h₂ => ⟨h₂.1, h₂.2.files, h₂.2.jobs⟩

/-- The files that are at another place. -/
theorem mem_removeFile_iff {source : Nat} {path : String} {file : ConfFile} :
    file ∈ (w.removeFile source path).files ↔
      file ∈ w.files ∧ ¬ (file.source = source ∧ file.path = path) := by
  rw [mem_removeFile, Ne, ConfFile.key, Prod.mk.injEq]

theorem mem_putFile_iff {file file' : ConfFile} :
    file' ∈ (w.putFile file).files ↔ file' = file ∨
      file' ∈ w.files ∧ ¬ (file'.source = file.source ∧ file'.path = file.path) := by
  rw [mem_putFile, or_comm, Ne, ConfFile.key, ConfFile.key, Prod.mk.injEq]

/-- The file of a source at a path has been taken away, with the class that it has. -/
theorem Registry.removeFile (h : Registry [] none w) (source : Nat) (path : String) :
    Registry ((w.confFile? source path).bind ConfFile.job).toList none (w.removeFile source path) ∧
      ∀ c, (w.confFile? source path).bind ConfFile.job = some c →
        ¬ (w.removeFile source path).attached c := by
  have hfound : ∀ file ∈ w.files, file.source = source → file.path = path →
      w.confFile? source path = some file := by
    intro file hf hsource hpath
    cases hfind : w.confFile? source path with
    | none =>
      have := List.find?_eq_none.mp hfind file hf
      simp [hsource, hpath] at this
    | some file' =>
      have hkey : file'.source = source ∧ file'.path = path := by
        simpa using List.find?_some hfind
      exact congrArg some (h.paths file' (List.mem_of_find?_eq_some hfind) file hf
        (hkey.1.trans hsource.symm) (hkey.2.trans hpath.symm))
  have hsub : ∀ file ∈ (w.removeFile source path).files, file ∈ w.files :=
    fun file hf => (mem_removeFile_iff.mp hf).1
  have hgone : ∀ file ∈ w.files, file ∉ (w.removeFile source path).files →
      w.confFile? source path = some file := by
    intro file hf hnot
    rw [mem_removeFile_iff, not_and_not_right] at hnot
    exact hfound file hf (hnot hf).1 (hnot hf).2
  refine ⟨⟨fun file hf => h.known file (hsub file hf),
    fun file hf file' hf' => h.owners file (hsub file hf) file' (hsub file' hf'),
    fun file hf file' hf' => h.paths file (hsub file hf) file' (hsub file' hf'),
    fun n c hreg hempty hn hc => ?_, fun n hreg hn => ?_, fun cls hcls hc => ?_⟩, fun c hc => ?_⟩
  · -- the files before the chosen one do not count, and the chosen one is still there
    obtain ⟨before, file, after, hsplit, hcand, hnone⟩ :=
      List.findSome?_eq_some_iff.mp (h.chosen n c hreg hempty hn (by simp))
    have hf : file ∈ w.files := hsplit ▸ List.mem_append_right before List.mem_cons_self
    have hjob := (candidate_eq_some.mp hcand).1
    have hkept : file ∈ (w.removeFile source path).files := by
      by_contra hnot
      rw [hgone file hf hnot] at hc
      exact hc (Option.mem_toList.mpr hjob)
    have hfilter : ¬ (file.source = source ∧ file.path = path) := (mem_removeFile_iff.mp hkept).2
    refine List.findSome?_eq_some_iff.mpr ⟨before.filter fun f =>
      ¬ (f.source = source ∧ f.path = path), file, after.filter fun f =>
      ¬ (f.source = source ∧ f.path = path), ?_, hcand,
      fun f hmem => hnone f (List.mem_filter.mp hmem).1⟩
    rw [World.removeFile, hsplit, List.filter_append]
    exact congrArg (_ ++ ·) (List.filter_cons_of_pos
      (p := fun f : ConfFile => decide ¬ (f.source = source ∧ f.path = path))
      (decide_eq_true hfilter))
  · refine List.findSome?_eq_none_iff.mpr fun file hf => ?_
    exact List.findSome?_eq_none_iff.mp (h.missing n hreg hn) file (hsub file hf)
  · refine (h.held cls hcls (by simp)).imp_left ?_
    rintro ⟨file, hf, hjob⟩
    refine ⟨file, ?_, hjob⟩
    by_contra hnot
    rw [hgone file hf hnot] at hc
    exact hc (Option.mem_toList.mpr hjob)
  · rintro ⟨file, hf, hjob⟩
    obtain ⟨found, hfind, hfoundJob⟩ := Option.bind_eq_some_iff.mp hc
    have hkey : found.source = source ∧ found.path = path := by simpa using List.find?_some hfind
    have heq := h.owners file (hsub file hf) found (List.mem_of_find?_eq_some hfind) c hjob hfoundJob
    exact (mem_removeFile_iff.mp hf).2 (heq ▸ hkey)

/-- The files of other names are chosen from as before. -/
theorem select_putFile {n : String} {file : ConfFile} (h : w.candidate n file = none)
    (hold : ∀ file' ∈ w.files, file'.source = file.source → file'.path = file.path →
      w.candidate n file' = none) : (w.putFile file).select n = w.select n := by
  have hfiles : (w.putFile file).select n =
      (w.removeFile file.source file.path).files.findSome? (w.candidate n) := by
    show List.findSome? (w.candidate n) (_ ++ file :: _) = _
    rw [List.findSome?_append, List.findSome?_cons, h, ← List.findSome?_append,
      List.takeWhile_append_dropWhile]
  rw [hfiles, World.select, World.removeFile, ← List.head?_filterMap, List.filterMap_filter,
    ← List.head?_filterMap]
  refine congrArg List.head? (List.filterMap_congr fun file' hf => ?_)
  split
  · rfl
  · rename_i hkey
    have hkey : file'.source = file.source ∧ file'.path = file.path := by simpa using hkey
    exact (hold file' hf hkey.1 hkey.2).symm

/-- A file is written, where there was none, or one that had no other class. -/
theorem Registry.putFile (file : ConfFile) (h : Registry (file.job.toList ++ out) none w)
    (hclass : ∀ c, file.job = some c →
      ∃ cls, w.classes.get? c = some cls ∧ cls.deleted = false ∧ some cls.config.name = fresh)
    (hname : ∀ c m, file.job = some c → w.getRegistered m = some c → some m = fresh)
    (howner : ∀ file' ∈ w.files, ∀ c, file'.job = some c → file.job = some c →
      file'.source = file.source ∧ file'.path = file.path)
    (hold : ∀ file' ∈ w.files, file'.source = file.source → file'.path = file.path →
      file'.job = none ∨ file'.job = file.job) : Registry out fresh (w.putFile file) := by
  have hselect : ∀ m, some m ≠ fresh → (w.putFile file).select m = w.select m := by
    intro m hm
    have hnone : ∀ file', file'.job = none ∨ file'.job = file.job → w.candidate m file' = none := by
      intro file' hjob
      refine Option.eq_none_iff_forall_ne_some.mpr fun c hcand => ?_
      obtain ⟨hjob', cls, hget, hname'⟩ := candidate_eq_some.mp hcand
      rcases hjob with hjob | hjob
      · rw [hjob] at hjob'
        cases hjob'
      · obtain ⟨cls', hget', -, hn⟩ := hclass c (hjob.symm.trans hjob')
        rw [hget] at hget'
        cases hget'
        exact hm ((congrArg some hname').symm.trans hn)
    exact select_putFile (hnone file (.inr rfl))
      fun file' hf hsource hpath => hnone file' (hold file' hf hsource hpath)
  refine ⟨fun file' hf c hc => ?_, fun file₁ hf₁ file₂ hf₂ c hc₁ hc₂ => ?_,
    fun file₁ hf₁ file₂ hf₂ hsource hpath => ?_, fun m c hreg hempty hm hc => ?_,
    fun m hreg hm => ?_, fun cls hcls hc => ?_⟩
  · rcases mem_putFile_iff.mp hf with rfl | ⟨hf, -⟩
    · obtain ⟨cls, hget, hlive, -⟩ := hclass c hc
      exact ⟨cls, hget, hlive⟩
    · exact h.known file' hf c hc
  · rcases mem_putFile_iff.mp hf₁ with rfl | ⟨hmem₁, hkey₁⟩
    · rcases mem_putFile_iff.mp hf₂ with rfl | ⟨hmem₂, hkey₂⟩
      · rfl
      · exact absurd (howner file₂ hmem₂ c hc₂ hc₁) hkey₂
    · rcases mem_putFile_iff.mp hf₂ with rfl | ⟨hmem₂, -⟩
      · exact absurd (howner file₁ hmem₁ c hc₁ hc₂) hkey₁
      · exact h.owners file₁ hmem₁ file₂ hmem₂ c hc₁ hc₂
  · rcases mem_putFile_iff.mp hf₁ with rfl | ⟨hmem₁, hkey₁⟩
    · rcases mem_putFile_iff.mp hf₂ with rfl | ⟨-, hkey₂⟩
      · rfl
      · exact absurd ⟨hsource.symm, hpath.symm⟩ hkey₂
    · rcases mem_putFile_iff.mp hf₂ with rfl | ⟨hmem₂, -⟩
      · exact absurd ⟨hsource, hpath⟩ hkey₁
      · exact h.paths file₁ hmem₁ file₂ hmem₂ hsource hpath
  · rw [hselect m hm]
    refine h.chosen m c hreg hempty (by simp) fun hmem => ?_
    rcases List.mem_append.mp hmem with hmem | hmem
    · exact hm (hname c m (Option.mem_toList.mp hmem) hreg)
    · exact hc hmem
  · rw [hselect m hm]
    exact h.missing m hreg (by simp)
  · by_cases hjob : file.job = some cls.id
    · exact .inl ⟨file, mem_putFile_iff.mpr (.inl rfl), hjob⟩
    · have hnot : cls.id ∉ file.job.toList ++ out := by
        rw [List.mem_append, Option.mem_toList]
        exact not_or.mpr ⟨hjob, hc⟩
      refine (h.held cls hcls hnot).imp_left ?_
      rintro ⟨file', hf, hjob'⟩
      refine ⟨file', mem_putFile_iff.mpr (.inr ⟨hf, ?_⟩), hjob'⟩
      rintro ⟨hsource, hpath⟩
      rcases hold file' hf hsource hpath with hnone | hsame
      · rw [hnone] at hjob'
        cases hjob'
      · exact hjob (hsame.symm.trans hjob')

/-- A class is new, and belongs to no file yet. -/
theorem Registry.newClass {cls : ClassState} (h : Registry out none w)
    (hnew : w.classes.get? cls.id = none) :
    Registry (cls.id :: out) none { w.putClass cls with lastClass := cls.id } := by
  have hget : ∀ c cls', w.classes.get? c = some cls' → (w.classes.put cls).get? c = some cls' := by
    intro c cls' hc
    refine (Store.get?_put_ne fun heq => ?_).trans hc
    rw [show c = cls.id from heq, hnew] at hc
    cases hc
  have hselect : ∀ n, World.select { w.putClass cls with lastClass := cls.id } n = w.select n := by
    intro n
    refine select_congr rfl fun file hf => Option.ext fun c => ?_
    rw [candidate_eq_some, candidate_eq_some]
    refine and_congr_right fun hjob => ?_
    obtain ⟨cls', hcls', -⟩ := h.known file hf c hjob
    show (∃ cls₁, (w.classes.put cls).get? c = some cls₁ ∧ cls₁.config.name = n) ↔ _
    rw [hget c cls' hcls', hcls']
  refine ⟨fun file hf c hc => ?_, h.owners, h.paths, fun n c hreg hempty hn hc => ?_,
    fun n hreg hn => ?_, fun cls' hcls' hc => ?_⟩
  · obtain ⟨cls', hcls', hlive⟩ := h.known file hf c hc
    exact ⟨cls', hget c cls' hcls', hlive⟩
  · rw [hselect]
    exact h.chosen n c hreg hempty hn fun hmem => hc (List.mem_cons_of_mem _ hmem)
  · rw [hselect]
    exact h.missing n hreg hn
  · rcases Store.mem_put.mp hcls' with rfl | ⟨hmem, -⟩
    · exact absurd List.mem_cons_self hc
    · exact h.held cls' hmem fun hmem => hc (List.mem_cons_of_mem _ hmem)

theorem Registry.mono {out' : List ClassId} (h : Registry out fresh w) (hsub : out ⊆ out') :
    Registry out' fresh w :=
  ⟨h.known, h.owners, h.paths, fun n c hreg hempty hn hc =>
    h.chosen n c hreg hempty hn fun hmem => hc (hsub hmem), h.missing, fun cls hcls hc =>
    h.held cls hcls fun hmem => hc (hsub hmem)⟩

/-- What is to be done after a file has been read: its class is to be considered, where it has
one. -/
def Considering (out : List ClassId) (w : World) : Option ClassId → Prop
  | none => Registry out none w
  | some c => ∃ cls, w.classes.get? c = some cls ∧ Registry out (some cls.config.name) w

/-- A file is parsed, and written with the class that comes of it: a new one, or the one that it
had. -/
theorem parseJob_registry {source : Nat} {path name : String} {parsed : Parsed}
    (hs : SoundWith k w) (h : Registry out none w)
    (hok : ((w.confFile? source path).bind ConfFile.job).isSome = true → parsed.ok = true) :
    Sat (parseJob w ((w.confFile? source path).bind ConfFile.job) name parsed)
      (fun r => Considering out (r.1.putFile ⟨source, path, r.2⟩) r.2 ∧ Untouched w r.1 ∧
        ∀ c, r.2 = some c → w.classes.get? c = none ∨
          (w.confFile? source path).bind ConfFile.job = some c)
      (fun _ => True) := by
  have hfound : ∀ file ∈ w.files, file.source = source → file.path = path →
      file.job = (w.confFile? source path).bind ConfFile.job := by
    intro file hf hsource hpath
    cases hfind : w.confFile? source path with
    | none =>
      have := List.find?_eq_none.mp hfind file hf
      simp [hsource, hpath] at this
    | some file' =>
      have hkey : file'.source = source ∧ file'.path = path := by
        simpa using List.find?_some hfind
      rw [h.paths file hf file' (List.mem_of_find?_eq_some hfind) (hsource.trans hkey.1.symm)
        (hpath.trans hkey.2.symm)]
      rfl
  unfold parseJob
  split
  · rename_i hnone
    rw [hnone] at hfound
    have hnew : w.classes.get? (w.lastClass + 1) = none := by
      refine Store.get?_eq_none.mpr fun cls hcls hid => ?_
      have hle := hs.classIds cls hcls
      rw [show cls.id = w.lastClass + 1 from hid] at hle
      exact absurd hle (Nat.not_succ_le_self _)
    split
    · refine ⟨⟨_, Store.get?_put_self, (h.newClass hnew).putFile _ ?_ ?_ ?_ ?_⟩,
        ⟨rfl, rfl⟩, ?_⟩
      · rintro _ ⟨⟩
        exact ⟨_, Store.get?_put_self, rfl, rfl⟩
      · rintro _ m ⟨⟩ hm
        obtain ⟨cls, hcls, -⟩ := hs.getRegistered hm
        rw [hnew] at hcls
        cases hcls
      · rintro file hf _ hjob ⟨⟩
        obtain ⟨cls, hcls, -⟩ := h.known file hf _ hjob
        rw [hnew] at hcls
        cases hcls
      · exact fun file hf hsource hpath => .inl (hfound file hf hsource hpath)
      · rintro _ ⟨⟩
        exact .inl hnew
    · refine ⟨h.putFile ⟨source, path, none⟩ ?_ ?_ ?_ ?_, .refl w, ?_⟩
      · rintro _ ⟨⟩
      · rintro _ _ ⟨⟩
      · rintro _ _ _ _ ⟨⟩
      · exact fun file hf hsource hpath => .inl (hfound file hf hsource hpath)
      · rintro _ ⟨⟩
  · rename_i c hsome
    rw [hsome] at hfound hok
    obtain ⟨file₀, hfind, hjob₀⟩ := Option.bind_eq_some_iff.mp hsome
    have hf₀ := List.mem_of_find?_eq_some hfind
    have hkey₀ : file₀.source = source ∧ file₀.path = path := by
      simpa using List.find?_some hfind
    obtain ⟨cls, hcls, hlive⟩ := h.known file₀ hf₀ c hjob₀
    have hid : cls.id = c := Store.key_of_get? hcls
    subst hid
    simp only [World.getClass, hcls]
    rw [sat_bind, sat_ok, sat_bind]
    refine (sat_true (m := parseOn _ _ _)).imp fun r₁ _ => ?_
    rw [sat_bind]
    refine (sat_true (m := parseOn _ _ _)).imp fun r₂ _ => ?_
    rw [hok rfl]
    have hsame : SameTables w ((w.setSys r₂.1).putClass { cls with
        config := { parsed.config with name := cls.config.name }
        startOn := r₁.2
        stopOn := r₂.2 }) := .putClass _ hcls rfl
    refine ⟨⟨_, Store.get?_put_self, ((hsame.registry h).mono
      (List.subset_append_right _ _)).putFile ⟨source, path, some cls.id⟩ ?_ ?_ ?_ ?_⟩, ⟨rfl, rfl⟩, ?_⟩
    · rintro _ ⟨⟩
      exact ⟨_, Store.get?_put_self, hlive, rfl⟩
    · rintro _ m ⟨⟩ hm
      obtain ⟨cls', hcls', rfl⟩ := hs.getRegistered hm
      rw [hcls] at hcls'
      cases hcls'
      rfl
    · rintro file hf _ hjob ⟨⟩
      rw [h.owners file hf file₀ hf₀ cls.id hjob hjob₀]
      exact hkey₀
    · exact fun file hf hsource hpath => .inr (hfound file hf hsource hpath)
    · rintro _ ⟨⟩
      exact .inr hsome

theorem considerParsed_registry {job : Option ClassId}
    (hh : Housing w.classes w.registered w.jobs) (h : Considering out w job) :
    Sat (considerParsed x w job) (fun w' => Registry out none w' ∧ Untouched w w')
      (fun _ => True) := by
  cases job with
  | none => exact ⟨h, .refl w⟩
  | some c =>
    obtain ⟨cls, hcls, h⟩ := h
    rw [considerParsed, sat_bind]
    exact jobClassConsider_registry hh hcls h

/-- The files of a source that have a class are not replaced by one with errors. -/
theorem confReloadPath_registry {source : Nat} {path : String} {overriding : Bool}
    {content : Option Parsed} (hs : SoundWith k w) (h : Registry [] none w)
    (hok : ∀ parsed, content = some parsed → overriding = true → parsed.ok = true) :
    Sat (confReloadPath x w source path overriding content)
      (fun r => Registry [] none r.1 ∧ r.1.jobs = w.jobs) (fun _ => True) := by
  -- what is the case once the file that is to be replaced has been taken away
  have hfirst : ∃ orig : Option ConfFile, ∃ w₁ : World,
      (if overriding then none else w.confFile? source path) = orig ∧
      (if overriding then w else w.removeFile source path) = w₁ ∧ SoundWith k w₁ ∧
      w₁.jobs = w.jobs ∧ Registry (orig.bind ConfFile.job).toList none w₁ ∧
      (∀ c, orig.bind ConfFile.job = some c → ¬ w₁.attached c ∧ w₁.classes.get? c ≠ none ∧
        w₁.confFile? source path = none) ∧
      (((w₁.confFile? source path).bind ConfFile.job).isSome = true → overriding = true) := by
    cases overriding with
    | true => exact ⟨none, w, rfl, rfl, hs, rfl, h, (fun _ hc => by cases hc), fun _ => rfl⟩
    | false =>
      obtain ⟨hremoved, hgone⟩ := h.removeFile source path
      have hnone : (w.removeFile source path).confFile? source path = none := by
        refine List.find?_eq_none.mpr fun file hf => ?_
        simpa using (mem_removeFile_iff.mp hf).2
      refine ⟨_, _, rfl, rfl, (hs.setFiles _).sound, rfl, hremoved, fun c hc => ⟨hgone c hc, ?_,
        hnone⟩, fun hsome => ?_⟩
      · obtain ⟨file, hfind, hjob⟩ := Option.bind_eq_some_iff.mp hc
        obtain ⟨cls, hcls, -⟩ := h.known file (List.mem_of_find?_eq_some hfind) c hjob
        exact fun hnone => by cases hcls.symm.trans hnone
      · rw [show (if false = true then w else w.removeFile source path) = w.removeFile source path
          from rfl, hnone] at hsome
        cases hsome
  obtain ⟨orig, w₁, horig, hw₁, hs₁, hjobs₁, h₁, hgone, hover⟩ := hfirst
  have hdestroy : ∀ w₂ : World, SoundWith k w₂ → w₂.jobs = w.jobs →
      Registry (orig.bind ConfFile.job).toList none w₂ →
      (∀ c, orig.bind ConfFile.job = some c → ¬ w₂.attached c) →
      Sat (destroyOrig w₂ orig) (fun w' => Registry [] none w' ∧ w'.jobs = w.jobs)
        (fun _ => True) := by
    intro w₂ hs₂ hj₂ h₂ hgone₂
    cases orig with
    | none => exact ⟨h₂, hj₂⟩
    | some file =>
      exact (confFileDestroy_registry hs₂.housing h₂ hgone₂).imp fun _ h' =>
        ⟨h'.1, h'.2.jobs.trans hj₂⟩
  unfold confReloadPath
  dsimp only
  rw [horig, hw₁]
  split
  · rw [sat_bind]
    exact (hdestroy w₁ hs₁ hjobs₁ h₁ fun c hc => (hgone c hc).1).imp fun _ h' => h'
  · rename_i parsed
    rw [sat_bind]
    refine ((parseJob_stays hs₁).and (parseJob_registry hs₁ h₁ fun hsome =>
      hok parsed rfl (hover hsome))).mono ?_ fun _ _ => trivial
    rintro ⟨w₂, job⟩ ⟨⟨hg₂, -⟩, h₂, hsame₂, hnew⟩
    have hs₂ := (hg₂.sound.setFiles (w₂.putFile ⟨source, path, job⟩).files).sound
    dsimp only at h₂ hsame₂ hnew ⊢
    rw [sat_bind]
    refine ((considerParsed_stays hs₂).and (considerParsed_registry hs₂.housing h₂)).mono ?_
      fun _ _ => trivial
    rintro w₃ ⟨hg₃, h₃, hsame₃⟩
    rw [sat_bind]
    refine (hdestroy w₃ hg₃.sound ((hsame₃.jobs.trans hsame₂.jobs).trans hjobs₁) h₃
      fun c hc => ?_).imp fun _ h' => h'
    obtain ⟨hfree, hknown, hnone⟩ := hgone c hc
    rintro ⟨file, hf, hjob⟩
    rw [hsame₃.files] at hf
    rcases mem_putFile_iff.mp hf with rfl | ⟨hmem, -⟩
    · rcases hnew c hjob with hget | hupdate
      · exact hknown hget
      · rw [hnone] at hupdate
        cases hupdate
    · rw [hsame₂.files] at hmem
      exact hfree ⟨file, hmem, hjob⟩

/-- The override file has no errors. -/
def GoodOverride (override : Option (Option Parsed)) : Prop :=
  ∀ parsed, override = some (some parsed) → parsed.ok = true

theorem confLoadPathWithOverride_registry {source : Nat} {path : String}
    {content : Option Parsed} {override : Option (Option Parsed)} (hs : SoundWith k w)
    (h : Registry [] none w) (hgood : GoodOverride override) :
    Sat (confLoadPathWithOverride x w source path content override)
      (fun w' => Registry [] none w' ∧ w'.jobs = w.jobs) (fun _ => True) := by
  unfold confLoadPathWithOverride
  rw [sat_bind]
  refine ((confReloadPath_stays hs).and (confReloadPath_registry hs h fun _ _ hf => by
    cases hf)).mono ?_ fun _ _ => trivial
  rintro ⟨w₁, ok⟩ ⟨⟨hg₁, -⟩, h₁, hj₁⟩
  dsimp only at h₁ hj₁ ⊢
  split
  · exact ⟨h₁, hj₁⟩
  · split
    · exact ⟨h₁, hj₁⟩
    · rename_i content'
      rw [sat_bind]
      refine (confReloadPath_registry hg₁.sound h₁ fun parsed hparsed _ => ?_).imp
        fun _ h₂ => ⟨h₂.1, h₂.2.trans hj₁⟩
      exact hgood parsed (congrArg some hparsed)

theorem confDeleteHandler_registry {source : Nat} {path : String} (hs : SoundWith k w)
    (h : Registry [] none w) :
    Sat (confDeleteHandler w source path)
      (fun w' => Registry [] none w' ∧ w'.jobs = w.jobs) (fun _ => True) := by
  unfold confDeleteHandler
  split
  · exact ⟨h, rfl⟩
  · rename_i file hfind
    obtain ⟨h₁, hgone⟩ := h.removeFile source path
    rw [hfind] at h₁ hgone
    exact (confFileDestroy_registry (hs.setFiles _).sound.housing h₁ hgone).imp
      fun _ h' => ⟨h'.1, h'.2.jobs⟩

end Startup
