import Startup.World.Handling

/-!
# The registered class of a name is the one that its files choose

A class gets into the table when a file is read, and leaves it when its file is read
again or deleted, when a better file appears, or when its last instance ends.
`Registry` is what these keep: a registered class without instances is the one that
`conf_select_job` yields, and every class belongs to a file or is only there for its
instances.

`Registry out fresh` leaves room for what is under way: the classes `out` are new, or have
lost their file or an instance, and a file for the name `fresh` has been read.
-/

namespace Startup

open Lib

variable {k : Slack} {x : Host} {w w' w'' : World} {c : ClassId} {out : List ClassId}
  {fresh : Option String}

/-- The class of a file, if its name is `n`. -/
def World.candidate (w : World) (n : String) (file : ConfFile) : Option ClassId :=
  file.job.filter fun c => (w.classes.get? c).any fun cls => cls.config.name = n

/-- The class that `conf_select_job` yields when the classes of all files exist. -/
def World.select (w : World) (n : String) : Option ClassId := w.files.findSome? (w.candidate n)

/-- The class belongs to a file. -/
def World.attached (w : World) (c : ClassId) : Prop := ∃ file ∈ w.files, file.job = some c

/-- The table of classes agrees with the files. -/
structure Registry (out : List ClassId) (fresh : Option String) (w : World) : Prop where
  known : ∀ file ∈ w.files, ∀ c, file.job = some c →
    ∃ cls, w.classes.get? c = some cls ∧ cls.deleted = false
  owners : ∀ file ∈ w.files, ∀ file' ∈ w.files, ∀ c, file.job = some c → file'.job = some c →
    file = file'
  paths : ∀ file ∈ w.files, ∀ file' ∈ w.files, file.source = file'.source →
    file.path = file'.path → file = file'
  chosen : ∀ n c, w.getRegistered n = some c → w.instances c = [] → some n ≠ fresh →
    c ∉ out → w.select n = some c
  missing : ∀ n, w.getRegistered n = none → some n ≠ fresh → w.select n = none
  held : ∀ cls ∈ w.classes.items, cls.id ∉ out →
    w.attached cls.id ∨ cls.deleted = true ∧ w.instances cls.id ≠ []

/-! ## The choice -/

theorem candidate_eq_some {n : String} {file : ConfFile} :
    w.candidate n file = some c ↔
      file.job = some c ∧ ∃ cls, w.classes.get? c = some cls ∧ cls.config.name = n := by
  unfold World.candidate
  rw [Option.filter_eq_some_iff]
  simp only [Option.any_eq_true, decide_eq_true_eq]

theorem selectFrom_eq {n : String} {files : List ConfFile}
    (h : ∀ file ∈ files, ∀ c, file.job = some c → ∃ cls, w.classes.get? c = some cls) :
    selectFrom w n files = .ok (files.findSome? (w.candidate n)) := by
  induction files with
  | nil => rfl
  | cons file files ih =>
    have hrest := ih fun file' hf => h file' (List.mem_cons_of_mem file hf)
    rw [selectFrom, List.findSome?_cons]
    cases hjob : file.job with
    | none =>
      rw [World.candidate, hjob]
      exact hrest
    | some c =>
      obtain ⟨cls, hcls⟩ := h file List.mem_cons_self c hjob
      simp only [World.getClass, hcls, bind, Except.bind]
      split
      · rename_i hname
        rw [candidate_eq_some.mpr ⟨hjob, cls, hcls, hname⟩]
      · rename_i hname
        have hnone : w.candidate n file = none := by
          refine Option.eq_none_iff_forall_ne_some.mpr fun c' hcand => ?_
          obtain ⟨hjob', cls', hcls', hname'⟩ := candidate_eq_some.mp hcand
          rw [hjob] at hjob'
          cases hjob'
          rw [hcls] at hcls'
          cases hcls'
          exact hname hname'
        rw [hnone]
        exact hrest

theorem Registry.confSelectJob_eq (h : Registry out fresh w) (n : String) :
    confSelectJob w n = .ok (w.select n) :=
  selectFrom_eq fun file hf c hc => (h.known file hf c hc).imp fun _ hcls => hcls.1

theorem select_eq_some {n : String} (h : w.select n = some c) :
    w.attached c ∧ ∃ cls, w.classes.get? c = some cls ∧ cls.config.name = n := by
  obtain ⟨file, hf, hcand⟩ := List.exists_of_findSome?_eq_some h
  obtain ⟨hjob, hcls⟩ := candidate_eq_some.mp hcand
  exact ⟨⟨file, hf, hjob⟩, hcls⟩

theorem select_congr {n : String} (hfiles : w'.files = w.files)
    (h : ∀ file ∈ w.files, w'.candidate n file = w.candidate n file) : w'.select n = w.select n := by
  rw [World.select, World.select, hfiles, ← List.head?_filterMap, List.filterMap_congr h,
    List.head?_filterMap]

/-! ## What does not concern the table -/

/-- What the choice depends on. -/
def ClassState.brief (cls : ClassState) : String × Bool := (cls.config.name, cls.deleted)

/-- The files, the table and the names of the classes are as they were, and no instance is
gone. -/
structure SameTables (w w' : World) : Prop where
  files : w'.files = w.files
  registered : w'.registered = w.registered
  classes : ∀ c, (w'.classes.get? c).map ClassState.brief = (w.classes.get? c).map ClassState.brief
  instances : ∀ c, w'.instances c = [] → w.instances c = []

namespace SameTables

theorem refl (w : World) : SameTables w w := ⟨rfl, rfl, fun _ => rfl, fun _ h => h⟩

theorem trans (h : SameTables w w') (h' : SameTables w' w'') : SameTables w w'' :=
  ⟨h'.files.trans h.files, h'.registered.trans h.registered,
    fun c => (h'.classes c).trans (h.classes c), fun c he => h.instances c (h'.instances c he)⟩

/-- A class that is there has the same name, and is deleted if it was. -/
theorem get (h : SameTables w w') {cls' : ClassState} (hget : w'.classes.get? c = some cls') :
    ∃ cls, w.classes.get? c = some cls ∧ cls'.brief = cls.brief := by
  have hbrief := h.classes c
  rw [hget] at hbrief
  obtain ⟨cls, hcls, heq⟩ := Option.map_eq_some_iff.mp hbrief.symm
  exact ⟨cls, hcls, heq.symm⟩

theorem symm_get (h : SameTables w w') {cls : ClassState} (hget : w.classes.get? c = some cls) :
    ∃ cls', w'.classes.get? c = some cls' ∧ cls'.brief = cls.brief := by
  have hbrief := h.classes c
  rw [hget] at hbrief
  exact Option.map_eq_some_iff.mp hbrief

theorem select (h : SameTables w w') (n : String) : w'.select n = w.select n := by
  refine select_congr h.files fun file _ => Option.ext fun c => ?_
  rw [candidate_eq_some, candidate_eq_some]
  refine and_congr_right fun _ => ⟨?_, ?_⟩
  · rintro ⟨cls', hget', hname⟩
    obtain ⟨cls, hget, hbrief⟩ := h.get hget'
    exact ⟨cls, hget, (congrArg Prod.fst hbrief).symm.trans hname⟩
  · rintro ⟨cls, hget, hname⟩
    obtain ⟨cls', hget', hbrief⟩ := h.symm_get hget
    exact ⟨cls', hget', (congrArg Prod.fst hbrief).trans hname⟩

theorem registry (h : SameTables w w') (hr : Registry out fresh w) : Registry out fresh w' := by
  have hattached : ∀ c, w'.attached c ↔ w.attached c := fun c => by
    rw [World.attached, World.attached, h.files]
  refine ⟨fun file hf c hc => ?_, ?_, ?_, fun n c hreg hempty hn hc => ?_, fun n hreg hn => ?_,
    fun cls' hcls' hc => ?_⟩
  · obtain ⟨cls, hget, hdeleted⟩ := hr.known file (h.files ▸ hf) c hc
    obtain ⟨cls', hget', hbrief⟩ := h.symm_get hget
    exact ⟨cls', hget', (congrArg Prod.snd hbrief).trans hdeleted⟩
  · rw [h.files]
    exact hr.owners
  · rw [h.files]
    exact hr.paths
  · rw [World.getRegistered, h.registered] at hreg
    rw [h.select]
    exact hr.chosen n c hreg (h.instances c hempty) hn hc
  · rw [World.getRegistered, h.registered] at hreg
    rw [h.select]
    exact hr.missing n hreg hn
  · obtain ⟨cls, hget, hbrief⟩ := h.get (Store.get?_of_mem hcls')
    have hid : cls.id = cls'.id := Store.key_of_get? hget
    have hdeleted : cls'.deleted = cls.deleted := congrArg Prod.snd hbrief
    rw [hattached, hdeleted, ← hid]
    refine (hr.held cls (Store.mem_of_get? hget) (hid ▸ hc)).imp_right fun hlive => ?_
    exact ⟨hlive.1, fun hempty => hlive.2 (h.instances cls.id hempty)⟩

theorem of_sys (sys : Sys) : SameTables w (w.setSys sys) :=
  ⟨rfl, rfl, fun _ => rfl, fun _ h => h⟩

/-- A class is written. -/
theorem putClass {cls old : ClassState} (sys : Sys) (hget : w.classes.get? cls.id = some old)
    (hbrief : cls.brief = old.brief) : SameTables w ((w.setSys sys).putClass cls) := by
  refine ⟨rfl, rfl, fun c => ?_, fun _ h => h⟩
  show ((w.classes.put cls).get? c).map _ = _
  by_cases hc : c = cls.id
  · subst hc
    rw [show (w.classes.put cls).get? cls.id = some cls from Store.get?_put_self, hget]
    exact congrArg some hbrief
  · rw [Store.get?_put_ne (show c ≠ key cls from hc)]

/-- A job is written, where there is none or one of the same class. -/
theorem putJob {job : Job} (sys : Sys)
    (hold : ∀ old, w.jobs.get? job.id = some old → old.classId = job.classId) :
    SameTables w ((w.setSys sys).putJob job) := by
  refine ⟨rfl, rfl, fun _ => rfl, fun c hempty => ?_⟩
  have hall : ∀ j ∈ (w.jobs.put job).items, j.classId ≠ c := fun j hj => by
    simpa using List.filter_eq_nil_iff.mp hempty j hj
  refine List.filter_eq_nil_iff.mpr fun j hj => ?_
  by_cases hid : j.id = job.id
  · have hclass := hold j (hid ▸ Store.get?_of_mem hj)
    have hnew := hall job (Store.mem_put.mpr (.inl rfl))
    simpa [hclass] using hnew
  · simpa using hall j (Store.mem_put.mpr (.inr ⟨hj, hid⟩))

end SameTables

/-! ## Events -/

theorem resetStartOn_tables {old : ClassState} (cls : ClassState)
    (hget : w.classes.get? cls.id = some old) (hbrief : cls.brief = old.brief) :
    Sat (resetStartOn w cls) (SameTables w) (fun _ => True) := by
  unfold resetStartOn
  split
  · exact .refl w
  · rw [sat_bind]
    exact (sat_true (m := resetOperator _ _)).imp fun r _ => .putClass r.1 hget hbrief

/-- A call on a job that cannot free it. -/
theorem withJob_tables {fn : SourceFn} {id : JobId} {f : Sys → Job → Except Fault (Sys × JobRef)}
    (hframed : ∀ job, w.jobs.get? id = some job → Framed w.sys job (f w.sys job))
    (hlive : ∀ job, Sat (f w.sys job) (fun r => r.2.Live fun _ => True) (fun _ => True)) :
    Sat (withJob w fn id f) (SameTables w) (fun _ => True) := by
  unfold withJob
  cases hget : w.jobs.get? id with
  | none => trivial
  | some job =>
    dsimp only
    rw [sat_bind]
    refine ((hframed job hget).and (hlive job)).mono ?_ fun _ _ => trivial
    rintro ⟨sys, job' | job'⟩ ⟨hframe, hl⟩
    · refine .putJob sys fun old hold => ?_
      have hid : job'.id = id := hframe.ident.trans (Store.key_of_get? hget)
      rw [hid, hget] at hold
      cases hold
      exact hframe.classId.symm
    · exact hl.elim

theorem findOrNew_tables {cls : ClassState} {name : String} (h : SoundWith k w) :
    Sat (findOrNew w cls name) (fun r => SameTables w r.1) (fun _ => True) := by
  have hnew : ∀ (sys : Sys) stopOn, SameTables w { (w.setSys sys).putJob
      (jobNew (w.lastJob + 1) cls.id cls.config name stopOn) with lastJob := w.lastJob + 1 } := by
    intro sys stopOn
    have hput : SameTables w ((w.setSys sys).putJob
        (jobNew (w.lastJob + 1) cls.id cls.config name stopOn)) := by
      refine .putJob sys fun old hold => ?_
      have hle := h.jobIds old (Store.mem_of_get? hold)
      rw [show old.id = w.lastJob + 1 from Store.key_of_get? hold] at hle
      exact absurd hle (Nat.not_succ_le_self _)
    exact ⟨hput.files, hput.registered, hput.classes, hput.instances⟩
  unfold findOrNew
  split
  · exact .refl w
  · unfold jobNewInstance
    cases cls.stopOn with
    | none => exact hnew w.sys none
    | some root =>
      show Sat (copyOperator w.sys root >>= _) _ _
      rw [sat_bind]
      exact (sat_true (m := copyOperator _ _)).imp fun r _ => hnew r.1 (some r.2)

theorem handleInstances_tables {event : Event} {ids : List JobId} (h : SoundWith k w)
    (he : (w.sys.event? event.id).isSome = true) :
    Sat (handleInstances x event w ids) (SameTables w) (fun _ => True) := by
  have hall : Sat (handleInstances x event w ids) (fun w' => Goes k w w' ∧ SameTables w w')
      (fun _ => True) := by
    refine foldlM_sat ⟨.refl h, .refl w⟩ ?_
    rintro w₁ ⟨h₁, ht₁⟩ id -
    obtain ⟨new, hext, -⟩ := h₁.queue
    have he₁ := hext.event?_isSome he
    have hacts : ∀ job, w₁.jobs.get? id = some job →
        Acts w₁.sys job (handleStopOn x w₁.sys job event) := by
      intro job hget
      have hmem := Store.mem_of_get? hget
      exact ⟨handleStopOn_frame (h₁.sound.accounts.owned hmem) he₁,
        handleStopOn_settled (h₁.sound.settled job hmem), handleStopOn_spent⟩
    refine ((withJob_stays h₁.sound rfl hacts).and
      (withJob_tables (fun job hget => (hacts job hget).framed) fun _ => handleStopOn_live)).mono
      ?_ fun _ _ => trivial
    rintro w₂ ⟨h₂, ht₂⟩
    exact ⟨h₁.trans h₂, ht₁.trans ht₂⟩
  exact hall.imp fun _ h' => h'.2

theorem jobClassInductJob_tables (h : SoundWith k w) (htable : InTable w c)
    (hstart : ∀ cls, w.classes.get? c = some cls → cls.startOn.isSome = true) :
    Sat (jobClassInductJob x w c) (fun r => SameTables w r.1) (fun _ => True) := by
  obtain ⟨cls, hget, hreg⟩ := htable
  obtain ⟨root, hroot⟩ := Option.isSome_iff_exists.mp (hstart cls hget)
  have hid : cls.id = c := Store.key_of_get? hget
  subst hid
  have hg := h.accounts.grounded (Store.mem_of_get? hget) hroot
  unfold jobClassInductJob World.getClass
  simp only [hget]
  rw [sat_bind, sat_ok, hroot]
  dsimp only
  rw [sat_bind]
  refine (sat_true (m := eventOperatorEnvironment _ _ _ _ _)).imp fun env _ => ?_
  split
  · rw [sat_bind]
    exact (resetStartOn_tables cls hget rfl).imp fun _ h' => h'
  · rw [sat_bind]
    refine ((findOrNew_sat h hget hreg).and (findOrNew_tables h)).mono ?_ fun _ _ => trivial
    rintro ⟨w₁, job⟩ ⟨⟨h₁, -, hjob⟩, ht₁⟩
    obtain ⟨new, hext, -⟩ := h₁.queue
    dsimp only at h₁ hjob ht₁ hext ⊢
    rw [sat_bind]
    refine (withJob_tables (fun job' hget' => ?_) fun _ => inductInstance_live).imp
      fun w₂ ht₂ => ?_
    · exact inductInstance_frame (h₁.sound.accounts.owned (Store.mem_of_get? hget'))
        (hg.mono hext)
    · split
      · trivial
      · rename_i cls₂ hget₂
        rw [sat_bind, sat_ok, sat_bind]
        have hid₂ : cls₂.id = cls.id := Store.key_of_get? hget₂
        refine (resetStartOn_tables cls₂ (hid₂ ▸ hget₂) rfl).imp fun w₃ ht₃ => ?_
        exact (ht₁.trans ht₂).trans ht₃

theorem offerStartOn_tables {old cls : ClassState} {root : EventOperator} {event : Event}
    (h : SoundWith k w) (hget : w.classes.get? cls.id = some old)
    (hstart : old.startOn = some root) (hstop : cls.stopOn = old.stopOn)
    (hbrief : cls.brief = old.brief) (htable : InTable w cls.id)
    (he : (w.sys.event? event.id).isSome = true) :
    Sat (offerStartOn x w cls root event) (fun r => SameTables w r.1) (fun _ => True) := by
  have hlinked := (h.accounts.linked old (Store.mem_of_get? hget)).1 root hstart
  have hname : cls.config.name = old.config.name := congrArg Prod.fst hbrief
  unfold offerStartOn
  rw [sat_bind]
  refine (handleOperator_sat hlinked he).mono (fun r hr => ?_) fun _ _ => trivial
  obtain ⟨h₁, ht₁⟩ := putMatched_holds { cls with startOn := some r.2.1 } h hget hstart rfl
    hstop hname hr (.offeredStart event.id cls.id)
  have hput : SameTables w ((w.setSys (r.1.act (.offeredStart event.id cls.id))).putClass
      { cls with startOn := some r.2.1 }) := .putClass _ hget hbrief
  dsimp only
  split
  · have h₂ := h₁.sound.act (.startedFor event.id cls.id)
    refine (jobClassInductJob_tables (c := cls.id) h₂.sound (ht₁.inTable htable) ?_).imp
      fun r' ht => (hput.trans (.of_sys _)).trans ht
    intro cls' hcls'
    have hself : (w.classes.put { cls with startOn := some r.2.1 }).get? cls.id =
        some { cls with startOn := some r.2.1 } := Store.get?_put_self
    obtain rfl := Option.some.inj (hself.symm.trans hcls')
    rfl
  · exact hput

theorem handleStartOn_tables {event : Event} (h : SoundWith k w) (htable : InTable w c)
    (he : (w.sys.event? event.id).isSome = true) :
    Sat (handleStartOn x w c event) (fun r => SameTables w r.1) (fun _ => True) := by
  obtain ⟨cls, hget, -⟩ := id htable
  have hid : cls.id = c := Store.key_of_get? hget
  subst hid
  unfold handleStartOn World.getClass
  simp only [hget]
  rw [sat_bind, sat_ok]
  split
  · exact .refl w
  · rename_i root hroot
    split
    · exact offerStartOn_tables h hget hroot rfl rfl htable he
    split
    · unfold awaitCgroupManager
      rw [sat_bind]
      split
      · exact .refl w
      · rw [sat_bind]
        exact (sat_true (m := handleOperator _ _ _ _ _)).imp fun r _ => .putClass _ hget rfl
    split
    · exact offerStartOn_tables h hget hroot rfl rfl htable he
    · rw [sat_bind]
      refine ((resetStartOn_sat { cls with cgmanagerWait := false } h hget rfl rfl rfl).and
        (resetStartOn_tables { cls with cgmanagerWait := false } hget rfl)).mono ?_
        fun _ _ => trivial
      rintro w₁ ⟨⟨h₁, hregs, -, hnames, hput⟩, ht₁⟩
      obtain ⟨new, hext, -⟩ := h₁.queue
      exact (offerStartOn_tables h₁.sound (hput root hroot) rfl rfl rfl
        ((SameTable.mk hregs hnames).inTable htable) (hext.event?_isSome he)).imp
        fun r ht₂ => ht₁.trans ht₂

theorem eventPendingHandleJobs_tables {o : HashOrder} {event : Event} (h : SoundWith k w)
    (he : (w.sys.event? event.id).isSome = true) :
    Sat (eventPendingHandleJobs x o w event) (SameTables w) (fun _ => True) := by
  have htable := h.inTable_order o
  unfold eventPendingHandleJobs
  generalize o.order (w.registered.items.map Registration.cls) = cs at htable
  induction cs generalizing w with
  | nil => exact .refl w
  | cons c cs ih =>
    rw [handleClasses, sat_bind]
    refine ((handleInstances_holds h he).and (handleInstances_tables h he)).mono ?_
      fun _ _ => trivial
    rintro w₁ ⟨⟨h₁, hc₁⟩, ht₁⟩
    obtain ⟨new, hext, -⟩ := h₁.queue
    have htable₁ := SameTable.of_classes hc₁
    have hc := htable₁.inTable (htable c List.mem_cons_self)
    have he₁ := hext.event?_isSome he
    rw [sat_bind]
    refine ((handleStartOn_holds h₁.sound hc he₁).and
      (handleStartOn_tables h₁.sound hc he₁)).mono ?_ fun _ _ => trivial
    rintro ⟨w₂, ok⟩ ⟨⟨h₂, htable₂⟩, ht₂⟩
    cases ok with
    | false => exact ht₁.trans ht₂
    | true =>
      obtain ⟨new₂, hext₂, -⟩ := h₂.queue
      refine (ih h₂.sound (hext₂.event?_isSome he₁) fun c' hc' => ?_).imp
        fun w₃ ht₃ => (ht₁.trans ht₂).trans ht₃
      exact (htable₁.trans htable₂).inTable (htable c' (List.mem_cons_of_mem c hc'))

end Startup
