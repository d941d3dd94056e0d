import Startup.Job.Machine
import Startup.Lib.Store

/-!
# The state of init: classes, instances and configuration files

`World` has every object that init has allocated.  A class is registered when
it is in the hash table `job_classes`; a class that another one of the same name
shadows, or that has been detached from its file, is not.  Files are those of
the sources of jobs (`CONF_JOB_DIR`).

This module has the functions of `init/job_class.c` that decide which class is
registered, and the destruction of jobs and classes.
-/

namespace Startup

open Lib

/-- The half of `JobClass` that init changes, and the configuration. -/
structure ClassState where
  id : ClassId
  config : JobClass
  startOn : Option EventOperator
  stopOn : Option EventOperator
  cgmanagerWait : Bool := false
  deleted : Bool := false

/-- An entry of the hash table `job_classes`. -/
structure Registration where
  name : String
  cls : ClassId

/-- `ConfFile`.  `source` is the position of its source in `conf_sources`. -/
structure ConfFile where
  source : Nat
  path : String
  job : Option ClassId

instance : Keyed ClassState ClassId := ⟨ClassState.id⟩

instance : Keyed Registration String := ⟨Registration.name⟩

instance : Keyed Job JobId := ⟨Job.id⟩

/-- The state of init.  `files` is sorted by source; `sources` are the paths of
the sources. -/
structure World where
  sys : Sys
  classes : Store ClassState
  registered : Store Registration
  jobs : Store Job
  files : List ConfFile
  sources : List String
  jobEnviron : List String
  lastClass : ClassId
  lastJob : JobId

/-- The order in which a hash table yields its entries. -/
structure HashOrder where
  order : List Nat → List Nat
  perm : ∀ l, (order l).Perm l

namespace World

/-- Access a class in the function `fn`, which must not have been freed. -/
def getClass (w : World) (fn : SourceFn) (c : ClassId) : Except Fault ClassState :=
  match w.classes.get? c with
  | none => .error (.useAfterFree fn)
  | some cls => .ok cls

/-- `job_class_get_registered`. -/
def getRegistered (w : World) (name : String) : Option ClassId :=
  (w.registered.get? name).map Registration.cls

/-- `class->instances`. -/
def instances (w : World) (c : ClassId) : List Job :=
  w.jobs.items.filter fun job => job.classId = c

/-- The instance of a class with a name. -/
def findInstance (w : World) (c : ClassId) (name : String) : Option Job :=
  (w.instances c).find? fun job => job.name = name

/-- Write to the shared state. -/
def setSys (w : World) (sys : Sys) : World := { w with sys := sys }

/-- Write a class. -/
def putClass (w : World) (cls : ClassState) : World := { w with classes := w.classes.put cls }

/-- Write a job. -/
def putJob (w : World) (job : Job) : World := { w with jobs := w.jobs.put job }

/-- The file of a source at a path. -/
def confFile? (w : World) (source : Nat) (path : String) : Option ConfFile :=
  w.files.find? fun f => f.source = source ∧ f.path = path

/-- Take a file out of the files of its source. -/
def removeFile (w : World) (source : Nat) (path : String) : World :=
  { w with files := w.files.filter fun f => ¬ (f.source = source ∧ f.path = path) }

/-- Write a file, which may be a new one of its source. -/
def putFile (w : World) (file : ConfFile) : World :=
  let files := (w.removeFile file.source file.path).files
  { w with files := files.takeWhile (fun f => f.source ≤ file.source) ++
      file :: files.dropWhile fun f => f.source ≤ file.source }

end World

/-! ## Conditions of a class -/

/-- `event_operator_reset (class->start_on)`. -/
def resetStartOn (w : World) (cls : ClassState) : Except Fault World :=
  match cls.startOn with
  | none => .ok w
  | some root => do
    let (sys, root) ← resetOperator w.sys root
    .ok ((w.setSys sys).putClass { cls with startOn := some root })

/-- `event_operator_handle` for every leaf of a condition, as
`job_class_event_block` calls it: the inner nodes are not updated. -/
def handleLeaves (x : Host) (event : Event) : EventOperator → EventOperator × Nat
  | .eventMatch name env value ev =>
    eventOperatorHandle x event [] (.eventMatch name env value ev)
  | .eventAnd value l r =>
    let (l, m) := handleLeaves x event l
    let (r, n) := handleLeaves x event r
    (.eventAnd value l r, m + n)
  | .eventOr value l r =>
    let (l, m) := handleLeaves x event l
    let (r, n) := handleLeaves x event r
    (.eventOr value l r, m + n)

/-- One matched leaf of the old class in `job_class_event_block`. -/
def blockMatched (x : Host) (r : Sys × EventOperator) (e : EventId) :
    Except Fault (Sys × EventOperator) :=
  match r.1.event? e with
  | none => .error (.useAfterFree .jobClassEventBlock)
  | some event => do
    let (root, n) := handleLeaves x event r.2
    let sys ← blockAll r.1 (List.replicate n event.id)
    .ok (sys, root)

/-- `job_class_event_block`: the new class takes over the matches of the old
one. -/
def jobClassEventBlock (x : Host) (w : World) (old new : ClassId) : Except Fault World := do
  let oldClass ← w.getClass .jobClassEventBlock old
  let newClass ← w.getClass .jobClassEventBlock new
  match oldClass.startOn, newClass.startOn with
  | some oldRoot, some newRoot =>
    if (w.instances old).isEmpty then do
      let (sys, root) ← oldRoot.refs.foldlM (blockMatched x) (w.sys, newRoot)
      .ok ((w.setSys sys).putClass { newClass with startOn := some root })
    else .ok w
  | _, _ => .ok w

/-! ## The registered class of a name -/

/-- The loop of `conf_select_job`. -/
def selectFrom (w : World) (name : String) : List ConfFile → Except Fault (Option ClassId)
  | [] => .ok none
  | file :: files =>
    match file.job with
    | none => selectFrom w name files
    | some c => do
      let cls ← w.getClass .confSelectJob c
      if cls.config.name = name then .ok (some c) else selectFrom w name files

/-- `conf_select_job`. -/
def confSelectJob (w : World) (name : String) : Except Fault (Option ClassId) :=
  selectFrom w name w.files

/-- `job_class_add`. -/
def jobClassAdd (w : World) (best : Option ClassId) : Except Fault World :=
  match best with
  | none => .ok w
  | some c => do
    let cls ← w.getClass .jobClassConsider c
    .ok { w with registered := w.registered.put ⟨cls.config.name, c⟩ }

/-- `job_class_remove` of a registered class: it stays while it has
instances. -/
def jobClassRemove (w : World) (cls : ClassState) : World × Bool :=
  if (w.instances cls.id).isEmpty then
    ({ w with registered := w.registered.erase cls.config.name }, true)
  else (w, false)

/-- `job_class_consider`: whether the class is now the registered one. -/
def jobClassConsider (x : Host) (w : World) (c : ClassId) : Except Fault (World × Bool) := do
  let cls ← w.getClass .jobClassConsider c
  match ← confSelectJob w cls.config.name with
  | none => .error (.assertFailed .jobClassConsider)
  | some best =>
    match w.getRegistered cls.config.name with
    | none => do
      let w ← jobClassAdd w (some best)
      .ok (w, c = best)
    | some old =>
      if old = best then .ok (w, c = best)
      else do
        let w ← jobClassEventBlock x w old best
        let oldClass ← w.getClass .jobClassConsider old
        match jobClassRemove w oldClass with
        | (w, true) => do
          let w ← jobClassAdd w (some best)
          .ok (w, c = best)
        | (w, false) => do
          let bestClass ← w.getClass .jobClassConsider best
          let w ← resetStartOn w bestClass
          .ok (w, false)

/-- `job_class_reconsider`: whether the class is not the registered one. -/
def jobClassReconsider (w : World) (c : ClassId) : Except Fault (World × Bool) := do
  let cls ← w.getClass .jobClassReconsider c
  let best ← confSelectJob w cls.config.name
  if w.getRegistered cls.config.name = some c then
    if best = some c then .ok (w, false)
    else
      match jobClassRemove w cls with
      | (w, true) => do
        let w ← jobClassAdd w best
        .ok (w, true)
      | (w, false) => .ok (w, false)
  else .ok (w, true)

/-! ## Destruction -/

/-- `nih_free` of a class, with the instances it has. -/
def freeClass (w : World) (cls : ClassState) : Except Fault World := do
  let sys ← destroyOperator w.sys cls.startOn
  let sys ← destroyOperator sys cls.stopOn
  let sys ← (w.instances cls.id).foldlM (fun sys job => destroyOperator sys job.stopOn) sys
  .ok { w with
    sys := sys
    classes := w.classes.erase cls.id
    jobs := w.jobs.filter fun job => job.classId ≠ cls.id }

/-- The end of `job_change_state` for a job that has come to rest in waiting:
it leaves its class, which is freed as well when it was only kept for its
instances. -/
def jobDestroy (w : World) (job : Job) : Except Fault World := do
  let w := { w with jobs := w.jobs.erase job.id }
  let (w, unused) ← jobClassReconsider w job.classId
  let cls ← w.getClass .jobChangeState job.classId
  let sys ← destroyOperator w.sys job.stopOn
  if cls.deleted && unused then freeClass (w.setSys sys) cls
  else .ok (w.setSys sys)

/-- A call on the job at an address, in the function `fn`. -/
def withJob (w : World) (fn : SourceFn) (id : JobId)
    (f : Sys → Job → Except Fault (Sys × JobRef)) : Except Fault World :=
  match w.jobs.get? id with
  | none => .error (.useAfterFree fn)
  | some job => do
    match ← f w.sys job with
    | (sys, .live job) => .ok ((w.setSys sys).putJob job)
    | (sys, .freed job) => jobDestroy (w.setSys sys) job

/-- `job_new`: a new instance of a class, with a copy of its `stop on`
condition. -/
def jobNewInstance (w : World) (cls : ClassState) (name : String) :
    Except Fault (World × Job) := do
  let (sys, stopOn) ← match cls.stopOn with
    | none => .ok (w.sys, none)
    | some root => do
      let (sys, root) ← copyOperator w.sys root
      .ok (sys, some root)
  let job := jobNew (w.lastJob + 1) cls.id cls.config name stopOn
  .ok ({ (w.setSys sys).putJob job with lastJob := w.lastJob + 1 }, job)

/-- The instance of a class with a name, which is created when there is none. -/
def findOrNew (w : World) (cls : ClassState) (name : String) : Except Fault (World × Job) :=
  match w.findInstance cls.id name with
  | some job => .ok (w, job)
  | none => jobNewInstance w cls name

/-- `job_class_environment`. -/
def jobClassEnvironment (x : Host) (w : World) (cls : ClassState) : List String :=
  environAppend x.getenv (environAppend x.getenv [] true w.jobEnviron) true cls.config.env

end Startup
