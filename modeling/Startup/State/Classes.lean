import Startup.State.Jobs
import Startup.State.Tables

/-!
# Classes in the state (`init/job_class.c`, `init/process.c`, `init/cgroup.c`)

`jobClassSerialise` and `jobClassDeserialise`, as they are compiled with cgroup
support.  `ClassDetails` are the fields of `JobClass` that no other part of the
model reads.  The file that the class belongs to and its place in the hash table
are no fields of it.
-/

namespace Startup

open Lib

/-! ## The rest of `JobClass` -/

/-- `ConsoleType`. -/
inductive ConsoleType where
  | none
  | output
  | owner
  | log
  deriving DecidableEq

/-- `struct rlimit`. -/
structure Rlimit where
  rlimCur : Int
  rlimMax : Int
  deriving DecidableEq

/-- `CGroupSetting`. -/
structure CGroupSetting where
  key : String
  value : Option String

/-- `CGroupName`. -/
structure CGroupName where
  name : String
  expanded : Option String
  settings : List CGroupSetting

/-- `CGroup`. -/
structure CGroup where
  controller : String
  names : List CGroupName

/-- `RLIMIT_NLIMITS`. -/
def rlimitNlimits : Nat := 16

/-- The fields of `JobClass` besides those of `ClassState`. -/
structure ClassDetails where
  description : Option String := none
  author : Option String := none
  version : Option String := none
  emits : List String := []
  reloadSignal : Int := 1
  console : ConsoleType := .log
  umask : Int := 18
  nice : Int := -21
  oomScoreAdj : Int := 0
  limits : Fin rlimitNlimits → Option Rlimit := fun _ => Option.none
  chroot : Option String := Option.none
  chdir : Option String := Option.none
  setuid : Option String := Option.none
  setgid : Option String := Option.none
  debug : Bool := false
  usage : Option String := Option.none
  apparmorSwitch : Option String := Option.none
  cgroups : List CGroup := []

/-- All of a `JobClass`, but for its instances. -/
structure ClassRecord where
  cls : ClassState
  details : ClassDetails
  cgroups_iff : cls.config.cgroups = !details.cgroups.isEmpty

/-! ## Enumerations -/

/-- `job_class_expect_type_enum_to_str`. -/
def jobClassExpectTypeEnumToStr : ExpectType → String
  | .none => "EXPECT_NONE"
  | .stop => "EXPECT_STOP"
  | .daemon => "EXPECT_DAEMON"
  | .fork => "EXPECT_FORK"
  | .readyfd => "EXPECT_READYFD"

/-- `job_class_expect_type_str_to_enum`. -/
def jobClassExpectTypeStrToEnum (expect : String) : Option ExpectType :=
  if expect = "EXPECT_NONE" then some .none
  else if expect = "EXPECT_STOP" then some .stop
  else if expect = "EXPECT_DAEMON" then some .daemon
  else if expect = "EXPECT_FORK" then some .fork
  else if expect = "EXPECT_READYFD" then some .readyfd
  else none

theorem expectType_restored (e : ExpectType) :
    jobClassExpectTypeStrToEnum (jobClassExpectTypeEnumToStr e) = some e := by
  cases e <;> decide

/-- `job_class_console_type_enum_to_str`. -/
def jobClassConsoleTypeEnumToStr : ConsoleType → String
  | .none => "CONSOLE_NONE"
  | .output => "CONSOLE_OUTPUT"
  | .owner => "CONSOLE_OWNER"
  | .log => "CONSOLE_LOG"

/-- `job_class_console_type_str_to_enum`. -/
def jobClassConsoleTypeStrToEnum (console : String) : Option ConsoleType :=
  if console = "CONSOLE_NONE" then some .none
  else if console = "CONSOLE_OUTPUT" then some .output
  else if console = "CONSOLE_OWNER" then some .owner
  else if console = "CONSOLE_LOG" then some .log
  else none

theorem consoleType_restored (c : ConsoleType) :
    jobClassConsoleTypeStrToEnum (jobClassConsoleTypeEnumToStr c) = some c := by
  cases c <;> decide

/-! ## Processes -/

/-- `process_serialise`; a process that is not there is written without a command. -/
def processSerialise (process : Option Process) : Json :=
  .record [
    ("script", some (jsonBool (process.any Process.script))),
    ("command", some (stateSetJsonStringVar (process.map Process.command)))]

/-- `process_deserialise`.  A process that cannot be read is not there either. -/
def processDeserialise (json : Json) : Option Process :=
  match stateGetJsonBoolVar json "script", stateGetJsonStringVar json "command" with
  | .ok script, .ok (some command) => some ⟨script, command⟩
  | _, _ => none

/-- The step of the loop in `process_deserialise_all`. -/
def processRestore (json : Json) : Restored (Option Process) := do
  restoreIf json.isObject
  .ok (processDeserialise json)

/-- The stores of `process_deserialise_all`, and whether it ends without an error. -/
def processStores (json : Json) : List (Nat × Option Process) × Restored Unit :=
  storeArray .processDeserialiseAll ProcessType.all.length processRestore json "process"

/-- `process_deserialise_all`. -/
def processDeserialiseAll (json : Json) : Restored (List (Option Process)) := do
  (processStores json).2
  .ok ((processStores json).1.map Prod.snd)

theorem process_restored (process : Option Process) :
    processRestore (processSerialise process) = .ok process := by
  generalize hjson : processSerialise process = json
  have hget := fun key => Json.get?_record key [
    ("script", some (jsonBool (process.any Process.script))),
    ("command", some (stateSetJsonStringVar (process.map Process.command)))] (by simp)
  rw [← processSerialise, hjson] at hget
  have hscript : stateGetJsonBoolVar json "script" = .ok (process.any Process.script) :=
    boolVar_ok (by rw [hget]; rfl)
  have hcommand : stateGetJsonStringVar json "command" = .ok (process.map Process.command) :=
    stringVar_ok (by rw [hget]; rfl)
  have hobject : json.isObject = true := hjson ▸ rfl
  rw [processRestore, processDeserialise]
  simp only [hobject, hscript, hcommand, check_true, bind, Except.bind]
  cases process <;> rfl

theorem processes_restored {json : Json} {process : ProcessType → Option Process}
    (h : json.get? "process" =
      some (.array (ProcessType.all.map fun p => processSerialise (process p)))) :
    processDeserialiseAll json = .ok (ProcessType.all.map process) := by
  obtain ⟨stores, hloop, hstores⟩ := storeLoop_map .processDeserialiseAll
    ProcessType.all.length (i := 0) ProcessType.all (fun p _ => process_restored (process p)) (by omega)
  have hread : processStores json = (stores, .ok ()) := by
    rw [processStores, storeArray, getArray_ok h]
    exact hloop
  rw [processDeserialiseAll, hread]
  exact congrArg Except.ok hstores

/-! ## Limits -/

/-- `state_rlimit_serialise`; a limit that is not set is written as zeros. -/
def stateRlimitSerialise (rlimit : Option Rlimit) : Json :=
  .record [
    ("rlim_cur", some (.int ((rlimit.map Rlimit.rlimCur).getD 0))),
    ("rlim_max", some (.int ((rlimit.map Rlimit.rlimMax).getD 0)))]

/-- The step of the loop in `state_rlimit_deserialise_all`: a limit of zeros is a
place that was left open. -/
def stateRlimitRestore (json : Json) : Restored (Option Rlimit) := do
  restoreIf json.isObject
  let rlimCur ← stateGetJsonIntVar json "rlim_cur"
  let rlimMax ← stateGetJsonIntVar json "rlim_max"
  .ok (if rlimCur = 0 ∧ rlimMax = 0 then none else some ⟨rlimCur, rlimMax⟩)

/-- The stores of `state_rlimit_deserialise_all`, and whether it ends without an error. -/
def stateRlimitStores (json : Json) : List (Nat × Option Rlimit) × Restored Unit :=
  storeArray .stateRlimitDeserialiseAll rlimitNlimits stateRlimitRestore json "limits"

/-- `state_rlimit_deserialise_all`. -/
def stateRlimitDeserialiseAll (json : Json) : Restored (List (Option Rlimit)) := do
  (stateRlimitStores json).2
  .ok ((stateRlimitStores json).1.map Prod.snd)

/-- The limit that is read back. -/
def revivedLimit (rlimit : Option Rlimit) : Option Rlimit :=
  rlimit.filter fun r => r ≠ ⟨0, 0⟩

theorem rlimit_restored (rlimit : Option Rlimit) :
    stateRlimitRestore (stateRlimitSerialise rlimit) = .ok (revivedLimit rlimit) := by
  generalize hjson : stateRlimitSerialise rlimit = json
  have hget := fun key => Json.get?_record key [
    ("rlim_cur", some (.int ((rlimit.map Rlimit.rlimCur).getD 0))),
    ("rlim_max", some (.int ((rlimit.map Rlimit.rlimMax).getD 0)))] (by simp)
  rw [← stateRlimitSerialise, hjson] at hget
  have hcur : stateGetJsonIntVar json "rlim_cur" = .ok ((rlimit.map Rlimit.rlimCur).getD 0) :=
    intVar_ok (by rw [hget]; rfl)
  have hmax : stateGetJsonIntVar json "rlim_max" = .ok ((rlimit.map Rlimit.rlimMax).getD 0) :=
    intVar_ok (by rw [hget]; rfl)
  have hobject : json.isObject = true := hjson ▸ rfl
  rw [stateRlimitRestore]
  simp only [hobject, hcur, hmax, check_true, bind, Except.bind]
  cases rlimit with
  | none => rfl
  | some r =>
    obtain ⟨cur, max⟩ := r
    by_cases hzero : cur = 0 ∧ max = 0 <;> simp [revivedLimit, Option.filter, hzero]

theorem rlimits_restored {json : Json} {limits : Fin rlimitNlimits → Option Rlimit}
    (h : json.get? "limits" = some (.array ((List.ofFn limits).map stateRlimitSerialise))) :
    stateRlimitDeserialiseAll json = .ok ((List.ofFn limits).map revivedLimit) := by
  obtain ⟨stores, hloop, hstores⟩ := storeLoop_map .stateRlimitDeserialiseAll
    rlimitNlimits (i := 0) (List.ofFn limits) (fun limit _ => rlimit_restored limit) (by simp)
  have hread : stateRlimitStores json = (stores, .ok ()) := by
    rw [stateRlimitStores, storeArray, getArray_ok h]
    exact hloop
  rw [stateRlimitDeserialiseAll, hread]
  exact congrArg Except.ok hstores

/-! ## Control groups -/

/-- A name that the function `fn`, which makes the object, asserts. -/
def getName (fn : SourceFn) (json : Json) (name : String) : Restored String := do
  match ← stateGetJsonStringVar json name with
  | some s => .ok s
  | none => .error (.fault (.assertFailed fn))

/-- `cgroup_setting_serialise`. -/
def cgroupSettingSerialise (setting : CGroupSetting) : Json :=
  .record [
    ("key", some (.string setting.key)),
    ("value", some (stateSetJsonStringVar setting.value))]

/-- `cgroup_setting_deserialise`. -/
def cgroupSettingDeserialise (json : Json) : Restored CGroupSetting := do
  restoreIf json.isObject
  let key ← getName .cgroupSettingNew json "key"
  let value ← stateGetJsonStringVar json "value"
  .ok ⟨key, value⟩

/-- `cgroup_name_serialise`. -/
def cgroupNameSerialise (name : CGroupName) : Json :=
  .record [
    ("name", some (.string name.name)),
    ("expanded", some (stateSetJsonStringVar name.expanded)),
    ("settings", some (.array (name.settings.map cgroupSettingSerialise)))]

/-- `cgroup_name_deserialise`. -/
def cgroupNameDeserialise (json : Json) : Restored CGroupName := do
  restoreIf json.isObject
  let name ← getName .cgroupNameNew json "name"
  let expanded ← stateGetJsonStringVar json "expanded"
  let items ← getArray json "settings"
  let settings ← items.mapM cgroupSettingDeserialise
  .ok ⟨name, expanded, settings⟩

/-- `cgroup_serialise`. -/
def cgroupSerialise (cgroup : CGroup) : Json :=
  .record [
    ("controller", some (.string cgroup.controller)),
    ("names", some (.array (cgroup.names.map cgroupNameSerialise)))]

/-- `cgroup_deserialise`. -/
def cgroupDeserialise (json : Json) : Restored CGroup := do
  restoreIf json.isObject
  let controller ← getName .cgroupNew json "controller"
  let items ← getArray json "names"
  let names ← items.mapM cgroupNameDeserialise
  .ok ⟨controller, names⟩

/-- `cgroup_deserialise_all`. -/
def cgroupDeserialiseAll (json : Json) : Restored (List CGroup) := do
  let items ← getArray json "cgroups"
  items.mapM cgroupDeserialise

theorem name_ok {fn : SourceFn} {json : Json} {name s : String}
    (h : json.get? name = some (.string s)) : getName fn json name = .ok s := by
  rw [getName, stringVar_ok (s := some s) h]
  rfl

theorem cgroupSetting_restored (setting : CGroupSetting) :
    cgroupSettingDeserialise (cgroupSettingSerialise setting) = .ok setting := by
  generalize hjson : cgroupSettingSerialise setting = json
  have hget := fun key => Json.get?_record key [
    ("key", some (.string setting.key)),
    ("value", some (stateSetJsonStringVar setting.value))] (by simp)
  rw [← cgroupSettingSerialise, hjson] at hget
  have hkey : getName .cgroupSettingNew json "key" = .ok setting.key := name_ok (by rw [hget]; rfl)
  have hvalue : stateGetJsonStringVar json "value" = .ok setting.value :=
    stringVar_ok (by rw [hget]; rfl)
  have hobject : json.isObject = true := hjson ▸ rfl
  rw [cgroupSettingDeserialise]
  simp only [hobject, hkey, hvalue, check_true, bind, Except.bind]

theorem cgroupName_restored (name : CGroupName) :
    cgroupNameDeserialise (cgroupNameSerialise name) = .ok name := by
  generalize hjson : cgroupNameSerialise name = json
  have hget := fun key => Json.get?_record key [
    ("name", some (.string name.name)),
    ("expanded", some (stateSetJsonStringVar name.expanded)),
    ("settings", some (.array (name.settings.map cgroupSettingSerialise)))] (by simp)
  rw [← cgroupNameSerialise, hjson] at hget
  have hname : getName .cgroupNameNew json "name" = .ok name.name := name_ok (by rw [hget]; rfl)
  have hexpanded : stateGetJsonStringVar json "expanded" = .ok name.expanded :=
    stringVar_ok (by rw [hget]; rfl)
  have hitems : getArray json "settings" = .ok (name.settings.map cgroupSettingSerialise) :=
    getArray_ok (by rw [hget]; rfl)
  have hsettings : (name.settings.map cgroupSettingSerialise).mapM cgroupSettingDeserialise =
      .ok (name.settings.map fun setting => setting) :=
    mapM_map_ok fun setting _ => cgroupSetting_restored setting
  have hobject : json.isObject = true := hjson ▸ rfl
  rw [cgroupNameDeserialise]
  simp only [hobject, hname, hexpanded, hitems, hsettings, check_true, bind, Except.bind,
    List.map_id']

theorem cgroup_restored (cgroup : CGroup) :
    cgroupDeserialise (cgroupSerialise cgroup) = .ok cgroup := by
  generalize hjson : cgroupSerialise cgroup = json
  have hget := fun key => Json.get?_record key [
    ("controller", some (.string cgroup.controller)),
    ("names", some (.array (cgroup.names.map cgroupNameSerialise)))] (by simp)
  rw [← cgroupSerialise, hjson] at hget
  have hcontroller : getName .cgroupNew json "controller" = .ok cgroup.controller :=
    name_ok (by rw [hget]; rfl)
  have hitems : getArray json "names" = .ok (cgroup.names.map cgroupNameSerialise) :=
    getArray_ok (by rw [hget]; rfl)
  have hnames : (cgroup.names.map cgroupNameSerialise).mapM cgroupNameDeserialise =
      .ok (cgroup.names.map fun name => name) :=
    mapM_map_ok fun name _ => cgroupName_restored name
  have hobject : json.isObject = true := hjson ▸ rfl
  rw [cgroupDeserialise]
  simp only [hobject, hcontroller, hitems, hnames, check_true, bind, Except.bind, List.map_id']

theorem cgroups_restored {json : Json} {cgroups : List CGroup}
    (h : json.get? "cgroups" = some (.array (cgroups.map cgroupSerialise))) :
    cgroupDeserialiseAll json = .ok cgroups := by
  have hread : (cgroups.map cgroupSerialise).mapM cgroupDeserialise =
      .ok (cgroups.map fun cgroup => cgroup) := mapM_map_ok fun cgroup _ => cgroup_restored cgroup
  rw [List.map_id'] at hread
  rw [cgroupDeserialiseAll, getArray_ok h]
  simp only [bind, Except.bind, hread]

/-! ## Writing a class -/

/-- The fields of `job_class_serialise`, with those that refer to other objects. -/
def jobClassFields (t : StateTexts) (r : ClassRecord) (jobs : List Json)
    (startOn stopOn : Option Json) : List (String × Option Json) := [
  ("name", some (.string r.cls.config.name)),
  ("path", some (.string (t.dbusPath [r.cls.config.name]))),
  ("instance", some (.string r.cls.config.instancePattern)),
  ("jobs", some (.array jobs)),
  ("description", some (stateSetJsonStringVar r.details.description)),
  ("author", some (stateSetJsonStringVar r.details.author)),
  ("version", some (stateSetJsonStringVar r.details.version)),
  ("env", some (stateSerialiseStrArray r.cls.config.env)),
  ("export", some (stateSerialiseStrArray r.cls.config.exports)),
  ("start_on", startOn),
  ("stop_on", stopOn),
  ("emits", some (stateSerialiseStrArray r.details.emits)),
  ("process", some (.array (ProcessType.all.map fun p => processSerialise (r.cls.config.process p)))),
  ("expect", some (.string (jobClassExpectTypeEnumToStr r.cls.config.expect))),
  ("task", some (jsonBool r.cls.config.task)),
  ("kill_timeout", some (.int r.cls.config.killTimeout)),
  ("kill_signal", some (.int r.cls.config.killSignal)),
  ("reload_signal", some (.int r.details.reloadSignal)),
  ("respawn", some (jsonBool r.cls.config.respawn)),
  ("respawn_limit", some (.int r.cls.config.respawnLimit)),
  ("respawn_interval", some (.int r.cls.config.respawnInterval)),
  ("normalexit", some (stateSerialiseIntArray r.cls.config.normalexit)),
  ("console", some (.string (jobClassConsoleTypeEnumToStr r.details.console))),
  ("umask", some (.int r.details.umask)),
  ("nice", some (.int r.details.nice)),
  ("oom_score_adj", some (.int r.details.oomScoreAdj)),
  ("limits", some (.array ((List.ofFn r.details.limits).map stateRlimitSerialise))),
  ("chroot", some (stateSetJsonStringVar r.details.chroot)),
  ("chdir", some (stateSetJsonStringVar r.details.chdir)),
  ("setuid", some (stateSetJsonStringVar r.details.setuid)),
  ("setgid", some (stateSetJsonStringVar r.details.setgid)),
  ("deleted", some (jsonBool r.cls.deleted)),
  ("debug", some (jsonBool r.details.debug)),
  ("usage", some (stateSetJsonStringVar r.details.usage)),
  ("apparmor_switch", some (stateSetJsonStringVar r.details.apparmorSwitch)),
  ("cgmanager_wait", some (jsonBool r.cls.cgmanagerWait)),
  ("cgroups", some (.array (r.details.cgroups.map cgroupSerialise)))]

/-- `job_class_serialise`; `jobs` is what `job_serialise_all` makes of the instances. -/
def jobClassSerialise (t : StateTexts) (sys : Sys) (r : ClassRecord) (jobs : List Json) :
    Option Json := do
  let startOn ← r.cls.startOn.mapM (eventOperatorSerialiseAll sys)
  let stopOn ← r.cls.stopOn.mapM (eventOperatorSerialiseAll sys)
  some (.record (jobClassFields t r jobs startOn stopOn))

/-- `job_serialise_all`, for instances in some order. -/
def jobSerialiseAll (t : StateTexts) (sys : Sys) (blocking : Job → List Json) (jobs : List Job) :
    Option (List Json) :=
  jobs.mapM fun job => jobSerialise t sys job (blocking job)

/-! ## Reading a class -/

/-- The field that is missing in the state of older versions. -/
def getOptionalField {α : Type} (json : Json) (name : String) (old : α)
    (get : Json → String → Restored α) : Restored α :=
  match json.get? name with
  | none => .ok old
  | some _ => get json name

/-- `job_deserialise_all`, for a queue of `n` events: the jobs get the addresses from
`first` on. -/
def jobDeserialiseAll (x : Host) (parseOnSimple : String → Option EventOperator) (n : Nat)
    (first : JobId) (cls : ClassState) (json : Json) : Restored (List Job) := do
  let items ← getArray json "jobs"
  (items.zipIdx first).mapM fun item =>
    jobDeserialise x parseOnSimple n
      (fun name => jobNew item.2 cls.id cls.config name cls.stopOn) item.1

/-- The fields of a class before its conditions. -/
structure ClassHead where
  instancePattern : Option String
  description : Option String
  author : Option String
  version : Option String
  env : Option (List String)
  exports : Option (List String)

/-- The path is compared with the one that `job_class_new` has made up from the name. -/
def readClassHead (x : Host) (dbusPath : List String → String) (name : String) (json : Json) :
    Restored ClassHead := do
  let path ← stateGetJsonStringVarStrict json "path"
  restoreAssert .jobClassDeserialise (dbusPath [name] == path)
  let instancePattern ← stateGetJsonStringVar json "instance"
  let description ← stateGetJsonStringVar json "description"
  let author ← stateGetJsonStringVar json "author"
  let version ← stateGetJsonStringVar json "version"
  let env ← stateGetJsonEnvArray x json "env"
  let exports ← stateGetJsonEnvArray x json "export"
  .ok ⟨instancePattern, description, author, version, env, exports⟩

def ClassHead.fill (head : ClassHead) (cls : ClassState) : ClassState :=
  { cls with
    config := { cls.config with
      instancePattern := head.instancePattern.getD ""
      env := head.env.getD []
      exports := head.exports.getD [] } }

/-- The fields of a class between its conditions and its instances. -/
structure ClassTail where
  emits : List String
  expect : ExpectType
  task : Bool
  killTimeout : Int
  killSignal : Int
  reloadSignal : Int
  respawn : Bool
  respawnLimit : Int
  respawnInterval : Int
  console : ConsoleType
  umask : Int
  nice : Int
  oomScoreAdj : Int
  chroot : Option String
  chdir : Option String
  setuid : Option String
  setgid : Option String
  deleted : Bool
  debug : Bool
  usage : Option String
  apparmorSwitch : Option String
  normalexit : List Int
  limits : List (Option Rlimit)
  processes : List (Option Process)

def readClassTail (json : Json) : Restored ClassTail := do
  let emits ← getArray json "emits"
  let emits ← stateDeserialiseStrArray emits
  let expect ← stateGetJsonEnumVar jobClassExpectTypeStrToEnum json "expect"
  let task ← stateGetJsonBoolVar json "task"
  let killTimeout ← stateGetJsonIntVar json "kill_timeout"
  let killSignal ← stateGetJsonIntVar json "kill_signal"
  let reloadSignal ← getOptionalField json "reload_signal" 1 stateGetJsonIntVar
  let respawn ← stateGetJsonBoolVar json "respawn"
  let respawnLimit ← stateGetJsonIntVar json "respawn_limit"
  let respawnInterval ← stateGetJsonIntVar json "respawn_interval"
  let console ← stateGetJsonEnumVar jobClassConsoleTypeStrToEnum json "console"
  let umask ← stateGetJsonIntVar json "umask"
  let nice ← stateGetJsonIntVar json "nice"
  let oomScoreAdj ← stateGetJsonIntVar json "oom_score_adj"
  let chroot ← stateGetJsonStringVar json "chroot"
  let chdir ← stateGetJsonStringVar json "chdir"
  let setuid ← stateGetJsonStringVar json "setuid"
  let setgid ← stateGetJsonStringVar json "setgid"
  let deleted ← stateGetJsonBoolVar json "deleted"
  let debug ← stateGetJsonBoolVar json "debug"
  let usage ← stateGetJsonStringVar json "usage"
  let apparmorSwitch ← getOptionalField json "apparmor_switch" none stateGetJsonStringVar
  let normalexit ← getArray json "normalexit"
  let normalexit ← stateDeserialiseIntArray normalexit
  let limits ← stateRlimitDeserialiseAll json
  let processes ← processDeserialiseAll json
  .ok { emits, expect, task, killTimeout, killSignal, reloadSignal, respawn, respawnLimit
        respawnInterval, console, umask, nice, oomScoreAdj, chroot, chdir, setuid, setgid, deleted
        debug, usage, apparmorSwitch, normalexit, limits, processes }

def ClassTail.fill (tail : ClassTail) (cls : ClassState) : ClassState :=
  { cls with
    config := { cls.config with
      expect := tail.expect
      task := tail.task
      killTimeout := tail.killTimeout
      killSignal := tail.killSignal
      respawn := tail.respawn
      respawnLimit := tail.respawnLimit
      respawnInterval := tail.respawnInterval
      normalexit := tail.normalexit
      process := fun p => (tail.processes[p.index]?).join }
    deleted := tail.deleted }

/-- The fields that are read before the instances and are not in `ClassState`. -/
def ClassTail.details (tail : ClassTail) (head : ClassHead) (cgroups : List CGroup) :
    ClassDetails where
  description := head.description
  author := head.author
  version := head.version
  emits := tail.emits
  reloadSignal := tail.reloadSignal
  console := tail.console
  umask := tail.umask
  nice := tail.nice
  oomScoreAdj := tail.oomScoreAdj
  limits := fun i => (tail.limits[(i : Nat)]?).join
  chroot := tail.chroot
  chdir := tail.chdir
  setuid := tail.setuid
  setgid := tail.setgid
  debug := tail.debug
  usage := tail.usage
  apparmorSwitch := tail.apparmorSwitch
  cgroups := cgroups

/-- The groups of a class, and whether it waits for their manager. -/
def readCGroups (json : Json) : Restored (List CGroup × Bool) := do
  let cgroups ← getOptionalField json "cgmanager_wait" [] fun json _ => cgroupDeserialiseAll json
  let cgmanagerWait ← getOptionalField json "cgmanager_wait" false stateGetJsonBoolVar
  .ok (cgroups, cgmanagerWait)

/-- The class with its groups, which are read behind its instances. -/
def ClassState.withCGroups (cls : ClassState) (cgroups : List CGroup) (cgmanagerWait : Bool) :
    ClassState :=
  { cls with config := { cls.config with cgroups := !cgroups.isEmpty }, cgmanagerWait }

/-- `job_class_deserialise`, for a queue of `n` events.  `parseOnSimple` is given the
name of the stanza as well; `register` is what is asserted when the class is put into the table of
classes. -/
def jobClassDeserialise (x : Host) (dbusPath : List String → String)
    (parseOnSimple : String → String → Option EventOperator) (register : String → Restored Unit)
    (n : Nat) (id : ClassId) (first : JobId) (json : Json) : Restored (ClassRecord × List Job) := do
  restoreIf json.isObject
  let name ← stateGetJsonStringVarStrict json "name"
  restoreAssert .jobClassNew (name != "")
  let head ← readClassHead x dbusPath name json
  let startOn ← readConditionField (parseOnSimple "start") n json "start_on"
  let stopOn ← readConditionField (parseOnSimple "stop") n json "stop_on"
  let tail ← readClassTail json
  let cls : ClassState := { id, config := { name }, startOn := startOn.root, stopOn := stopOn.root }
  let cls := tail.fill (head.fill cls)
  register name
  let jobs ← jobDeserialiseAll x (parseOnSimple "stop") n first cls json
  let (cgroups, cgmanagerWait) ← readCGroups json
  let cls := cls.withCGroups cgroups cgmanagerWait
  -- the jobs refer to the class, which has its groups by now
  let jobs := jobs.map fun job => { job with cls := cls.config }
  .ok (⟨cls, tail.details head cgroups, rfl⟩, jobs)

/-! ## What is read back -/

/-- The class that is read back, at the address `id` and with the events at the
positions `f`. -/
def ClassRecord.revived (r : ClassRecord) (x : Host) (f : EventId → EventId) (id : ClassId) :
    ClassRecord where
  cls :=
    { id
      config := { r.cls.config with
        env := environAppend x.getenv [] true r.cls.config.env
        exports := environAppend x.getenv [] true r.cls.config.exports }
      startOn := r.cls.startOn.map (EventOperator.mapRefs f)
      stopOn := r.cls.stopOn.map (EventOperator.mapRefs f)
      cgmanagerWait := r.cls.cgmanagerWait
      deleted := r.cls.deleted }
  details := { r.details with limits := fun i => revivedLimit (r.details.limits i) }
  cgroups_iff := r.cgroups_iff

/-- The class while its instances are read. -/
def ClassRecord.forming (r : ClassRecord) (x : Host) (f : EventId → EventId) (id : ClassId) :
    ClassState :=
  { (r.revived x f id).cls with
    config := { (r.revived x f id).cls.config with cgroups := false }
    cgmanagerWait := false }

/-- The fields of a class that are read back in front of its conditions. -/
def ClassRecord.head (r : ClassRecord) (x : Host) : ClassHead where
  instancePattern := some r.cls.config.instancePattern
  description := r.details.description
  author := r.details.author
  version := r.details.version
  env := if r.cls.config.env.isEmpty then none else
    some (environAppend x.getenv [] true r.cls.config.env)
  exports := if r.cls.config.exports.isEmpty then none else
    some (environAppend x.getenv [] true r.cls.config.exports)

/-- Those that are read back between the conditions and the instances. -/
def ClassRecord.tail (r : ClassRecord) : ClassTail where
  emits := r.details.emits
  expect := r.cls.config.expect
  task := r.cls.config.task
  killTimeout := r.cls.config.killTimeout
  killSignal := r.cls.config.killSignal
  reloadSignal := r.details.reloadSignal
  respawn := r.cls.config.respawn
  respawnLimit := r.cls.config.respawnLimit
  respawnInterval := r.cls.config.respawnInterval
  console := r.details.console
  umask := r.details.umask
  nice := r.details.nice
  oomScoreAdj := r.details.oomScoreAdj
  chroot := r.details.chroot
  chdir := r.details.chdir
  setuid := r.details.setuid
  setgid := r.details.setgid
  deleted := r.cls.deleted
  debug := r.details.debug
  usage := r.details.usage
  apparmorSwitch := r.details.apparmorSwitch
  normalexit := r.cls.config.normalexit
  limits := (List.ofFn r.details.limits).map revivedLimit
  processes := ProcessType.all.map fun p => r.cls.config.process p

section Restored

variable {json : Json} {name : String}

theorem optionalField_ok {α : Type} {old a : α} {get : Json → String → Restored α} {value : Json}
    (h : json.get? name = some value) (hget : get json name = .ok a) :
    getOptionalField json name old get = .ok a := by
  simp only [getOptionalField, h, hget]

/-- A table of a class, where `NULL` is the empty one. -/
theorem envVar_getD (x : Host) (env : List String) :
    (if env.isEmpty then none else some (environAppend x.getenv [] true env)).getD [] =
      environAppend x.getenv [] true env := by
  cases env <;> rfl

section Written

variable {t : StateTexts} {r : ClassRecord} {jobs : List Json} {startItems stopItems : Option Json}

theorem readClassHead_written (x : Host) (hget : ∀ key, json.get? key =
    ((jobClassFields t r jobs startItems stopItems).lookup key).join) :
    readClassHead x t.dbusPath r.cls.config.name json = .ok (r.head x) := by
  have hpath : stateGetJsonStringVarStrict json "path" = .ok (t.dbusPath [r.cls.config.name]) :=
    stringVarStrict_ok (by rw [hget]; rfl)
  have hinstance : stateGetJsonStringVar json "instance" = .ok (some r.cls.config.instancePattern) :=
    stringVar_ok (by rw [hget]; rfl)
  have hdescription : stateGetJsonStringVar json "description" = .ok r.details.description :=
    stringVar_ok (by rw [hget]; rfl)
  have hauthor : stateGetJsonStringVar json "author" = .ok r.details.author :=
    stringVar_ok (by rw [hget]; rfl)
  have hversion : stateGetJsonStringVar json "version" = .ok r.details.version :=
    stringVar_ok (by rw [hget]; rfl)
  have henv := envVar_ok x json "env" r.cls.config.env (by rw [hget]; rfl)
  have hexport := envVar_ok x json "export" r.cls.config.exports (by rw [hget]; rfl)
  simp only [readClassHead, hpath, BEq.rfl, hinstance, hdescription, hauthor, hversion, henv,
    hexport, check_true, bind, Except.bind]
  rfl

theorem readClassTail_written (hget : ∀ key, json.get? key =
    ((jobClassFields t r jobs startItems stopItems).lookup key).join) :
    readClassTail json = .ok r.tail := by
  have hemits : getArray json "emits" = .ok (r.details.emits.map .string) :=
    getArray_ok (by rw [hget]; rfl)
  have hexpect : stateGetJsonEnumVar jobClassExpectTypeStrToEnum json "expect" =
      .ok r.cls.config.expect :=
    enumVar_ok (by rw [hget]; rfl) (expectType_restored r.cls.config.expect)
  have htask : stateGetJsonBoolVar json "task" = .ok r.cls.config.task := boolVar_ok (by rw [hget]; rfl)
  have hkillTimeout : stateGetJsonIntVar json "kill_timeout" = .ok r.cls.config.killTimeout :=
    intVar_ok (by rw [hget]; rfl)
  have hkillSignal : stateGetJsonIntVar json "kill_signal" = .ok r.cls.config.killSignal :=
    intVar_ok (by rw [hget]; rfl)
  have hreload : getOptionalField json "reload_signal" 1 stateGetJsonIntVar =
      .ok r.details.reloadSignal := by
    have hfield : json.get? "reload_signal" = some (.int r.details.reloadSignal) := by rw [hget]; rfl
    exact optionalField_ok hfield (intVar_ok hfield)
  have hrespawn : stateGetJsonBoolVar json "respawn" = .ok r.cls.config.respawn :=
    boolVar_ok (by rw [hget]; rfl)
  have hlimit : stateGetJsonIntVar json "respawn_limit" = .ok r.cls.config.respawnLimit :=
    intVar_ok (by rw [hget]; rfl)
  have hinterval : stateGetJsonIntVar json "respawn_interval" = .ok r.cls.config.respawnInterval :=
    intVar_ok (by rw [hget]; rfl)
  have hconsole : stateGetJsonEnumVar jobClassConsoleTypeStrToEnum json "console" =
      .ok r.details.console :=
    enumVar_ok (by rw [hget]; rfl) (consoleType_restored r.details.console)
  have humask : stateGetJsonIntVar json "umask" = .ok r.details.umask := intVar_ok (by rw [hget]; rfl)
  have hnice : stateGetJsonIntVar json "nice" = .ok r.details.nice := intVar_ok (by rw [hget]; rfl)
  have hoom : stateGetJsonIntVar json "oom_score_adj" = .ok r.details.oomScoreAdj :=
    intVar_ok (by rw [hget]; rfl)
  have hchroot : stateGetJsonStringVar json "chroot" = .ok r.details.chroot :=
    stringVar_ok (by rw [hget]; rfl)
  have hchdir : stateGetJsonStringVar json "chdir" = .ok r.details.chdir :=
    stringVar_ok (by rw [hget]; rfl)
  have hsetuid : stateGetJsonStringVar json "setuid" = .ok r.details.setuid :=
    stringVar_ok (by rw [hget]; rfl)
  have hsetgid : stateGetJsonStringVar json "setgid" = .ok r.details.setgid :=
    stringVar_ok (by rw [hget]; rfl)
  have hdeleted : stateGetJsonBoolVar json "deleted" = .ok r.cls.deleted := boolVar_ok (by rw [hget]; rfl)
  have hdebug : stateGetJsonBoolVar json "debug" = .ok r.details.debug := boolVar_ok (by rw [hget]; rfl)
  have husage : stateGetJsonStringVar json "usage" = .ok r.details.usage :=
    stringVar_ok (by rw [hget]; rfl)
  have happarmor : getOptionalField json "apparmor_switch" none stateGetJsonStringVar =
      .ok r.details.apparmorSwitch := by
    have hfield : json.get? "apparmor_switch" =
        some (stateSetJsonStringVar r.details.apparmorSwitch) := by rw [hget]; rfl
    exact optionalField_ok hfield (stringVar_ok hfield)
  have hnormalexit : getArray json "normalexit" = .ok (r.cls.config.normalexit.map .int) :=
    getArray_ok (by rw [hget]; rfl)
  have hlimits : stateRlimitDeserialiseAll json =
      .ok ((List.ofFn r.details.limits).map revivedLimit) := rlimits_restored (by rw [hget]; rfl)
  have hprocesses : processDeserialiseAll json =
      .ok (ProcessType.all.map fun p => r.cls.config.process p) :=
    processes_restored (by rw [hget]; rfl)
  simp only [readClassTail, hemits, strArray_ok, hexpect, htask, hkillTimeout, hkillSignal, hreload,
    hrespawn, hlimit, hinterval, hconsole, humask, hnice, hoom, hchroot, hchdir, hsetuid, hsetgid,
    hdeleted, hdebug, husage, happarmor, hnormalexit, intArray_ok, hlimits, hprocesses, bind,
    Except.bind]
  rfl

theorem readCGroups_written (hget : ∀ key, json.get? key =
    ((jobClassFields t r jobs startItems stopItems).lookup key).join) :
    readCGroups json = .ok (r.details.cgroups, r.cls.cgmanagerWait) := by
  have hcgroups : getOptionalField json "cgmanager_wait" []
      (fun json _ => cgroupDeserialiseAll json) = .ok r.details.cgroups := by
    have hfield : json.get? "cgmanager_wait" = some (jsonBool r.cls.cgmanagerWait) := by
      rw [hget]; rfl
    exact optionalField_ok hfield (cgroups_restored (by rw [hget]; rfl))
  have hwait : getOptionalField json "cgmanager_wait" false stateGetJsonBoolVar =
      .ok r.cls.cgmanagerWait := by
    have hfield : json.get? "cgmanager_wait" = some (jsonBool r.cls.cgmanagerWait) := by
      rw [hget]; rfl
    exact optionalField_ok hfield (boolVar_ok hfield)
  simp only [readCGroups, hcgroups, hwait, bind, Except.bind]

/-- With the fields of a class a new one is filled in as the one that is read back. -/
theorem ClassRecord.fill_tail (r : ClassRecord) (x : Host) (f : EventId → EventId) (id : ClassId) :
    r.tail.fill ((r.head x).fill
      { id, config := { name := r.cls.config.name }
        startOn := r.cls.startOn.map (EventOperator.mapRefs f)
        stopOn := r.cls.stopOn.map (EventOperator.mapRefs f) }) = r.forming x f id := by
  have hprocess : (fun p : ProcessType =>
      ((ProcessType.all.map r.cls.config.process)[p.index]?).join) = r.cls.config.process := by
    funext p
    rw [ProcessType.getElem?_index]
    rfl
  simp only [ClassTail.fill, ClassHead.fill, ClassRecord.tail, ClassRecord.head, hprocess,
    envVar_getD, Option.getD_some]
  rfl

theorem ClassRecord.details_tail (r : ClassRecord) (x : Host) (f : EventId → EventId) (id : ClassId) :
    r.tail.details (r.head x) r.details.cgroups = (r.revived x f id).details := by
  have hlimitAt : (fun i : Fin rlimitNlimits =>
      (((List.ofFn r.details.limits).map revivedLimit)[(i : Nat)]?).join) =
        fun i => revivedLimit (r.details.limits i) := by
    funext i
    simp
  simp only [ClassTail.details, ClassRecord.tail, ClassRecord.head, hlimitAt]
  rfl

end Written

/-- A class is read back, if it has a name and its instances are. -/
theorem jobClass_restored (t : StateTexts) {sys : Sys} {r : ClassRecord} (x : Host)
    (parseOnSimple : String → String → Option EventOperator) (register : String → Restored Unit)
    (id : ClassId) (first : JobId) (jobs : List Json)
    (hstart : ∀ root, r.cls.startOn = some root → ∀ e ∈ root.refs, (sys.event? e).isSome = true)
    (hstop : ∀ root, r.cls.stopOn = some root → ∀ e ∈ root.refs, (sys.event? e).isSome = true) :
    ∃ json, jobClassSerialise t sys r jobs = some json ∧
      jobClassDeserialise x t.dbusPath parseOnSimple register sys.events.length id first json = (do
        restoreAssert .jobClassNew (r.cls.config.name != "")
        register r.cls.config.name
        let jobs ← (jobs.zipIdx first).mapM fun item =>
          jobDeserialise x (parseOnSimple "stop") sys.events.length
            (fun name => jobNew item.2 id (r.forming x sys.indexOf id).config name
              (r.forming x sys.indexOf id).stopOn) item.1
        .ok (r.revived x sys.indexOf id,
          jobs.map fun job => { job with cls := (r.revived x sys.indexOf id).cls.config })) := by
  have hwrite : ∀ root : Option EventOperator,
      (∀ r, root = some r → ∀ e ∈ r.refs, (sys.event? e).isSome = true) →
      ∃ items, root.mapM (eventOperatorSerialiseAll sys) = some items := by
    intro root hq
    cases root with
    | none => exact ⟨none, rfl⟩
    | some r =>
      obtain ⟨nodes, hnodes, -⟩ := eventOperatorAll_restored (hq r rfl) rfl
      exact ⟨some (.array nodes), by simp [hnodes]⟩
  obtain ⟨startItems, hstartItems⟩ := hwrite r.cls.startOn hstart
  obtain ⟨stopItems, hstopItems⟩ := hwrite r.cls.stopOn hstop
  refine ⟨_, by rw [jobClassSerialise, hstartItems, hstopItems]; rfl, ?_⟩
  generalize hjson : Json.record _ = json
  have hget := fun key => Json.get?_record key
    (jobClassFields t r jobs startItems stopItems) (by simp [jobClassFields])
  rw [hjson] at hget
  have hname : stateGetJsonStringVarStrict json "name" = .ok r.cls.config.name :=
    stringVarStrict_ok (by rw [hget]; rfl)
  have hstartOn := conditionField_restored (parseOnSimple "start") rfl hstart hstartItems
    (show json.get? "start_on" = startItems by rw [hget]; rfl)
  have hstopOn := conditionField_restored (parseOnSimple "stop") rfl hstop hstopItems
    (show json.get? "stop_on" = stopItems by rw [hget]; rfl)
  have hjobs : getArray json "jobs" = .ok jobs := getArray_ok (by rw [hget]; rfl)
  have hobject : json.isObject = true := hjson ▸ rfl
  have hroot : ∀ root : Option EventOperator,
      (root.elim ConditionField.absent fun r => .array (r.mapRefs sys.indexOf)).root =
        root.map (EventOperator.mapRefs sys.indexOf) := by
    intro root
    cases root <;> rfl
  rw [jobClassDeserialise]
  simp only [hobject, hname, readClassHead_written x hget, hstartOn, hstopOn,
    readClassTail_written hget, hroot, r.fill_tail, jobDeserialiseAll, hjobs,
    readCGroups_written hget, r.details_tail x sys.indexOf id, ClassState.withCGroups,
    ← r.cgroups_iff, check_true, bind, Except.bind]
  rfl

end Restored

end Startup
