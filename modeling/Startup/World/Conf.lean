import Startup.World.State

/-!
# Configuration files (`init/conf.c`)

What the parser makes of a file is a parameter, `Parsed`: the model starts
where `parse_job` has gone through the stanzas.  A condition that has just been
parsed has no matches, which `Unmatched` carries.
-/

namespace Startup

open Lib

/-! ## Paths -/

/-- `strstr`: the first position of a text in another one. -/
def strstr (str pat : List Char) : Option Nat :=
  (List.range (str.length + 1)).find? fun i => pat.isPrefixOf (str.drop i)

/-- `strrchr`: the last position of a character. -/
def strrchr (str : List Char) (c : Char) : Option Nat :=
  (List.range str.length).reverse.find? fun i => str[i]? = some c

/-- `conf_to_job_name`: the path below that of the source, without the
extension of a configuration file. -/
def confToJobName (sourcePath path : String) : String :=
  let str := path.toList
  let str := if sourcePath.toList.isPrefixOf str then str.drop sourcePath.toList.length else str
  let str := str.dropWhile (· = '/')
  match strrchr str '.' with
  | some i =>
    if str.drop i = ".conf".toList ∨ str.drop i = ".override".toList then
      String.ofList (str.take i)
    else String.ofList str
  | none => String.ofList str

example : confToJobName "/etc/init" "/etc/init/net/eth0.conf" = "net/eth0" := by decide

/-- `conf_file_find`: the file whose name is that of a class. -/
def confFileFind (w : World) (name : String) : Option ConfFile :=
  w.files.find? fun file =>
    let found := strstr file.path.toList ("/" ++ name ++ ".conf").toList
    found.isSome && found = strrchr file.path.toList '/'

/-! ## Parsing -/

/-- A condition without matches. -/
structure Unmatched where
  root : EventOperator
  unmatched : eventOperatorReset root = root

/-- What the stanzas of a file make of a class: whether they are free of
errors, and the configuration that they leave.  `startOn` and `stopOn` are what
is left of the stanzas of that name, where there are any; one that is not free
of errors leaves no condition. -/
structure Parsed where
  ok : Bool
  config : JobClass
  startOn : Option (Option Unmatched) := none
  stopOn : Option (Option Unmatched) := none

/-- The effect of the stanzas of a condition: the old one is destroyed. -/
def parseOn (sys : Sys) (old : Option EventOperator) (parsed : Option (Option Unmatched)) :
    Except Fault (Sys × Option EventOperator) :=
  match parsed with
  | none => .ok (sys, old)
  | some new => do
    let sys ← destroyOperator sys old
    .ok (sys, new.map Unmatched.root)

/-- `parse_job`: a new class, or the class `update` changed.  There is no result
when the stanzas have errors; the class that was to be changed is then left as
it is. -/
def parseJob (w : World) (update : Option ClassId) (name : String) (parsed : Parsed) :
    Except Fault (World × Option ClassId) :=
  match update with
  | none =>
    if parsed.ok then
      let cls : ClassState :=
        { id := w.lastClass + 1
          config := { parsed.config with name := name }
          startOn := parsed.startOn.join.map Unmatched.root
          stopOn := parsed.stopOn.join.map Unmatched.root }
      .ok ({ w.putClass cls with lastClass := w.lastClass + 1 }, some cls.id)
    else .ok (w, none)
  | some c => do
    let cls ← w.getClass .parseJob c
    let (sys, startOn) ← parseOn w.sys cls.startOn parsed.startOn
    let (sys, stopOn) ← parseOn sys cls.stopOn parsed.stopOn
    let w := (w.setSys sys).putClass
      { cls with
        config := { parsed.config with name := cls.config.name }
        startOn := startOn
        stopOn := stopOn }
    .ok (w, if parsed.ok then some c else none)

/-! ## Files -/

/-- `conf_file_destroy` for a file that has been taken out of its source: its
class is freed, unless it has instances. -/
def confFileDestroy (w : World) (file : ConfFile) : Except Fault World :=
  match file.job with
  | none => .ok w
  | some c => do
    let cls ← w.getClass .confFileDestroy c
    let cls := { cls with deleted := true }
    let (w, unused) ← jobClassReconsider (w.putClass cls) c
    if unused then freeClass w cls else .ok w

/-- The end of `conf_reload_path` for the file that has been replaced. -/
def destroyOrig (w : World) (orig : Option ConfFile) : Except Fault World :=
  match orig with
  | none => .ok w
  | some file => confFileDestroy w file

/-- The class of a file is considered, if it has one. -/
def considerParsed (x : Host) (w : World) (job : Option ClassId) : Except Fault World :=
  match job with
  | none => .ok w
  | some c => do
    let (w, _) ← jobClassConsider x w c
    .ok w

/-- `conf_reload_path` for a source of jobs, and whether the file could be
read.  With `overriding`, the class that the file has is changed; otherwise it
gets a new one. -/
def confReloadPath (x : Host) (w : World) (source : Nat) (path : String) (overriding : Bool)
    (content : Option Parsed) : Except Fault (World × Bool) := do
  let orig := if overriding then none else w.confFile? source path
  let w := if overriding then w else w.removeFile source path
  match content with
  | none => do
    let w ← destroyOrig w orig
    .ok (w, false)
  | some parsed => do
    let update := (w.confFile? source path).bind ConfFile.job
    let name := confToJobName (w.sources.getD source "") path
    let (w, job) ← parseJob w update name parsed
    let w ← considerParsed x (w.putFile ⟨source, path, job⟩) job
    let w ← destroyOrig w orig
    .ok (w, true)

/-- `conf_load_path_with_override`.  `override` is the content of the override
file, where there is such a file. -/
def confLoadPathWithOverride (x : Host) (w : World) (source : Nat) (path : String)
    (content : Option Parsed) (override : Option (Option Parsed)) : Except Fault World := do
  let (w, ok) ← confReloadPath x w source path false content
  if !ok then .ok w
  else
    match override with
    | none => .ok w
    | some content => do
      let (w, _) ← confReloadPath x w source path true content
      .ok w

/-- `conf_delete_handler` for a file that is not an override file. -/
def confDeleteHandler (w : World) (source : Nat) (path : String) : Except Fault World :=
  match w.confFile? source path with
  | none => .ok w
  | some file => confFileDestroy (w.removeFile source path) file

end Startup
