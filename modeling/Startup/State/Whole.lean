import Startup.World.Making

/-!
# The whole state (`init/state.c`, `init/conf.c`)

`stateToJson` and `stateFromJson` are `state_to_string` and `state_from_string`
without the text, which json-c prints and parses; `tokener` is its parser.  What is
restored is a `StateImage`: events are found by their position, jobs by the names of
their class and their own.

The hash tables of classes and instances yield their entries in some order, a
`Listing`.
-/

namespace Startup

open Lib

/-! ## Blocked entries -/

/-- A `Blocked` entry that has been restored. -/
inductive BlockedImage where
  | job (className name : String)
  | event (index : Nat)
  deriving DecidableEq

/-- `state_serialise_blocked`, for the entries that `state_serialise_blocking` does not
leave out. -/
def stateSerialiseBlocked (w : World) : Blocked → Option Json
  | .job id => do
    let job ← w.jobs.get? id
    let cls ← w.classes.get? job.classId
    some (.record [
      ("data", some (.record [
        ("class", some (.string cls.config.name)), ("name", some (.string job.name))])),
      ("type", some (.string "BLOCKED_JOB"))])
  | .event e => do
    let index ← eventToIndex w.sys e
    some (.record [
      ("data", some (.record [("index", some (.int index))])),
      ("type", some (.string "BLOCKED_EVENT"))])
  | _ => none

/-- The entries that are written to the state: the requests of D-Bus clients are not. -/
def Blocked.written : Blocked → Bool
  | .job _ | .event _ => true
  | _ => false

/-- `state_serialise_blocking`. -/
def stateSerialiseBlocking (w : World) (blocking : List Blocked) : Option (List Json) :=
  (blocking.filter Blocked.written).mapM (stateSerialiseBlocked w)

/-! ## The objects that are restored -/

/-- A job that has been restored, and what it blocks. -/
structure JobImage where
  job : Job
  blocking : List BlockedImage

/-- A class that has been restored, with its instances. -/
structure ClassImage where
  record : ClassRecord
  jobs : List JobImage

/-- An event that has been restored, and what it blocks. -/
structure EventImage where
  record : EventRecord
  blocking : List BlockedImage

/-- `ConfSourceType`. -/
inductive ConfSourceType where
  | file
  | dir
  | jobDir
  deriving DecidableEq

/-- `ConfSource`, with the paths and flags of its files. -/
structure ConfSource where
  path : String
  type : ConfSourceType
  flag : Int
  files : List (String × Int)

/-- What `state_from_string` restores. -/
structure StateImage where
  events : List EventImage
  controlBusAddress : Option String
  cgroupManagerAddress : Option String
  confSources : List ConfSource
  jobEnviron : List String
  classes : List ClassImage

/-! ## Configuration -/

/-- `conf_source_type_enum_to_str`. -/
def confSourceTypeEnumToStr : ConfSourceType → String
  | .file => "CONF_FILE"
  | .dir => "CONF_DIR"
  | .jobDir => "CONF_JOB_DIR"

/-- `conf_source_type_str_to_enum`. -/
def confSourceTypeStrToEnum (type : String) : Option ConfSourceType :=
  if type = "CONF_FILE" then some .file
  else if type = "CONF_DIR" then some .dir
  else if type = "CONF_JOB_DIR" then some .jobDir
  else none

/-- `conf_file_serialise`.  The flags of sources and files only matter during a reload,
and are zero. -/
def confFileSerialise (w : World) (file : ConfFile) : Option Json := do
  let name ← match file.job with
    | none => some none
    | some c => do
      let cls ← w.classes.get? c
      let registered ← w.getRegistered cls.config.name
      let cls ← w.classes.get? registered
      some (some cls.config.name)
  some (.record [
    ("path", some (.string file.path)),
    ("conf_source", some (.int file.source)),
    ("flag", some (.int 0)),
    ("job_class", name.map fun name => .record [("name", some (.string name))])])

/-- `conf_source_serialise`, for a source of jobs. -/
def confSourceSerialise (w : World) (path : String) (source : Nat) : Option Json := do
  let files ← (w.files.filter fun file => file.source = source).mapM (confFileSerialise w)
  some (.record [
    ("path", some (.string path)),
    ("type", some (.string (confSourceTypeEnumToStr .jobDir))),
    ("flag", some (.int 0)),
    ("conf_files", some (.array files))])

/-- `conf_source_serialise_all`. -/
def confSourceSerialiseAll (w : World) : Option (List Json) :=
  w.sources.zipIdx.mapM fun source => confSourceSerialise w source.1 source.2

/-- `conf_file_deserialise`. -/
def confFileDeserialise (json : Json) : Restored (String × Int) := do
  restoreIf json.isObject
  let path ← stateGetJsonStringVarStrict json "path"
  let flag ← stateGetJsonIntVar json "flag"
  .ok (path, flag)

/-- `conf_source_deserialise`. -/
def confSourceDeserialise (json : Json) : Restored ConfSource := do
  let path ← stateGetJsonStringVarStrict json "path"
  let type ← stateGetJsonEnumVar confSourceTypeStrToEnum json "type"
  let flag ← stateGetJsonIntVar json "flag"
  let items ← getArray json "conf_files"
  let files ← items.mapM confFileDeserialise
  .ok ⟨path, type, flag, files⟩

/-- The loop of `conf_source_deserialise_all`, which goes on after a source that
cannot be restored. -/
def confSourcesFrom : List Json → Restored (List ConfSource)
  | [] => .ok []
  | json :: items => do
    restoreIf json.isObject
    match confSourceDeserialise json with
    | .ok source => do
      let sources ← confSourcesFrom items
      .ok (source :: sources)
    | .error .refused => confSourcesFrom items
    | .error f => .error f

/-- `conf_source_deserialise_all`. -/
def confSourceDeserialiseAll (json : Json) : Restored (List ConfSource) := do
  let items ← getArray json "conf_sources"
  confSourcesFrom items

/-! ## Addresses and the environment of jobs -/

/-- `control_deserialise_bus_address` and `cgroup_manager_deserialise`. -/
def addressDeserialise : Json → Restored (Option String)
  | .null => .ok none
  | .string address => .ok (some address)
  | _ => notRestored

/-- An address that older versions do not write.  `NULL`, for one that is not set, is
not passed on. -/
def getOptionalAddress (json : Json) (name : String) : Restored (Option String) :=
  match json.get? name with
  | none => .ok none
  | some value => addressDeserialise value

/-- `job_class_deserialise_job_environ`.  json-c passes the JSON `null` as `NULL`. -/
def jobClassDeserialiseJobEnviron (json : Json) : Restored (List String) := do
  restoreAssert .jobClassDeserialiseJobEnviron (!json.isNull)
  let items ← getItems json
  stateDeserialiseStrArray items

/-! ## Classes -/

/-- The source has the file that `conf_file_find` looks for. -/
def ConfSource.finds (source : ConfSource) (name : String) : Bool :=
  source.files.any fun file =>
    let found := strstr file.1.toList ("/" ++ name ++ ".conf").toList
    found.isSome && found = strrchr file.1.toList '/'

/-- A class comes into the table, which has classes of the names `registered`.  The file that is
found for it is tied to it, so that it is selected if the source of the file is one of jobs; that
one is selected is asserted by `job_class_consider`.  `job_class_add_safe` asserts that the name is
a new one.  With a file, a class of the same name would have to make way, which is not followed. -/
def jobClassRegister (sources : List ConfSource) (registered : List String) (name : String) :
    Restored Unit :=
  match sources.find? fun source => source.finds name with
  | some source => restoreAssert .jobClassConsider (source.type == .jobDir)
  | none => restoreAssert .jobClassAddSafe (!registered.contains name)

/-- `nih_free` of a class: its operators and those of its instances unblock their events, which
`event_unblock` asserts to be blocked. -/
def freeOperators {α : Type} (events : List EventRecord) (refs : List EventId) : Restored α := do
  restoreAssert .eventUnblock (refs.all fun e =>
    refs.count e ≤ ((events[e]?).map EventRecord.blockers).getD 0)
  notRestored

section Classes

variable (x : Host) (dbusPath : List String → String)
  (parseOnSimple : String → String → Option EventOperator) (sources : List ConfSource)
  (events : List EventRecord)

/-- The events of the operators that are made of a class. -/
def classOperators (json : Json) : List EventId :=
  match stateGetJsonStringVarStrict json "name" with
  | .ok name => operatorsRead x dbusPath parseOnSimple (List.range events.length) name json
  | .error _ => []

/-- The loop of `job_class_deserialise_all`, in which classes and jobs get addresses as they come.
A class that is refused is freed, and so is the class `last` before an element that is no
object. -/
def jobClassesFrom : ClassId → JobId → List String → List EventId → List Json →
    Restored (List (ClassRecord × List Job))
  | _, _, _, _, [] => .ok []
  | id, first, registered, last, json :: items =>
    if !json.isObject then freeOperators events last
    else
      let refs := classOperators x dbusPath parseOnSimple events json
      match jobClassDeserialise x dbusPath parseOnSimple (jobClassRegister sources registered)
        events.length id first json with
      | .error .refused => freeOperators events refs
      | .error f => .error f
      | .ok cls => do
        let classes ← jobClassesFrom (id + 1) (first + cls.2.length)
          (cls.1.cls.config.name :: registered) refs items
        .ok (cls :: classes)

/-- `job_class_deserialise_all`. -/
def jobClassDeserialiseAll (json : Json) : Restored (List (ClassRecord × List Job)) := do
  let items ← getArray json "job_classes"
  jobClassesFrom x dbusPath parseOnSimple sources events 1 1 [] [] items

end Classes

/-! ## Dependencies -/

/-- The objects that the dependencies are looked up in: the events, with their blocker
counts, and the classes and jobs by their names. -/
structure Lookup where
  events : List EventRecord
  classes : List (ClassRecord × List Job)

/-- `job_class_get_registered`, of the classes that have been restored. -/
def Lookup.class? (l : Lookup) (name : String) : Option (ClassRecord × List Job) :=
  l.classes.find? fun cls => cls.1.cls.config.name = name

/-- `job_find`. -/
def Lookup.job? (l : Lookup) (className name : String) : Option Job := do
  let cls ← l.class? className
  cls.2.find? fun job => job.name = name

/-- `state_deserialise_blocked`.  There are no D-Bus connections yet, so that an entry
for a D-Bus message cannot be restored. -/
def stateDeserialiseBlocked (l : Lookup) (json : Json) : Restored BlockedImage := do
  let type ← stateGetJsonStringVarStrict json "type"
  let data ← getEx json "data"
  if type = "BLOCKED_JOB" then do
    let name ← stateGetJsonStringVarStrict data "name"
    let className ← stateGetJsonStringVarStrict data "class"
    restoreIf (l.job? className name).isSome
    .ok (.job className name)
  else if type = "BLOCKED_EVENT" then do
    let index ← stateGetJsonIntVar data "index"
    let index ← eventFromIndex l.events.length index
    restoreAssert .stateDeserialiseBlocked
      ((l.events[index]?).any fun event => event.blockers != 0)
    .ok (.event index)
  else notRestored

/-- `state_deserialise_blocking`.  `json_object_array_length` asserts that its argument is
an array. -/
def stateDeserialiseBlocking (l : Lookup) (json : Json) : Restored (List BlockedImage) :=
  match json.get? "blocking" with
  | none => .ok []
  | some (.array items) => items.mapM (stateDeserialiseBlocked l)
  | some _ => .error (.fault (.assertFailed .stateDeserialiseBlocking))

/-- The step of the loop over the events in `state_deserialise_resolve_deps`. -/
def resolveEvent (l : Lookup) (item : Json × Nat) : Restored EventImage := do
  restoreIf item.1.isObject
  match l.events[item.2]? with
  | none => notRestored
  | some record => do
    let blocking ← stateDeserialiseBlocking l item.1
    .ok ⟨record, blocking⟩

/-- The step of the loop over the jobs of a class: what a job blocks. -/
def resolveJob (l : Lookup) (className : String) (json : Json) :
    Restored (Option (String × List BlockedImage)) := do
  restoreIf json.isObject
  match json.get? "blocking" with
  | none => .ok none
  | some _ => do
    let name ← stateGetJsonStringVarStrict json "name"
    restoreIf (l.job? className name).isSome
    let blocking ← stateDeserialiseBlocking l json
    .ok (some (name, blocking))

/-- The step of the loop over the classes: what the jobs of a class block. -/
def resolveClass (l : Lookup) (json : Json) :
    Restored (String × List (String × List BlockedImage)) := do
  restoreIf json.isObject
  let name ← stateGetJsonStringVarStrict json "name"
  restoreIf (l.class? name).isSome
  let items ← getArray json "jobs"
  let jobs ← items.mapM (resolveJob l name)
  .ok (name, jobs.filterMap fun job => job)

/-- What a job blocks, of the entries that have been found. -/
def blockingOf (found : List (String × List (String × List BlockedImage)))
    (className name : String) : List BlockedImage :=
  (found.filter fun cls => cls.1 = className).flatMap fun cls =>
    (cls.2.filter fun job => job.1 = name).flatMap Prod.snd

/-- The classes with what their jobs block. -/
def attachBlocking (found : List (String × List (String × List BlockedImage)))
    (classes : List (ClassRecord × List Job)) : List ClassImage :=
  classes.map fun cls =>
    ⟨cls.1, cls.2.map fun job => ⟨job, blockingOf found cls.1.cls.config.name job.name⟩⟩

/-- `state_deserialise_resolve_deps`. -/
def stateDeserialiseResolveDeps (l : Lookup) (json : Json) :
    Restored (List EventImage × List ClassImage) := do
  let items ← getArray json "events"
  let events ← items.zipIdx.mapM (resolveEvent l)
  let items ← getArray json "job_classes"
  let found ← items.mapM (resolveClass l)
  .ok (events, attachBlocking found l.classes)

end Startup
