import Startup.World.Conf
import Mathlib.Logic.Function.Basic

/-!
# Reloading a directory of configuration (`init/conf.c`)

`conf_source_reload` toggles the flag of a source, reads all files that it finds below it, each of
which gets the flag, and then deletes the files with the other flag.

* `ConfState`: the flags and watches of the sources, and the flags of their files;
* `confCreateModifyHandler`, `confFileVisitor`: what is done with a file when the directory is
  watched for the first time, and when it is walked;
* `confSourceReload`: a reload;
* `ConfState.step`: reloads, file events and everything else.

A source of type `CONF_DIR` is one whose files never make a class.
-/

namespace Startup

open Lib

/-! ## Names -/

/-- The text of a path from its last dot on. -/
def confExt (path : String) : Option (List Char) :=
  (strrchr path.toList '.').map path.toList.drop

/-- `is_conf_file_std`. -/
def isConfFileStd (path : String) : Bool := confExt path = some ".conf".toList

/-- `is_conf_file_override`. -/
def isConfFileOverride (path : String) : Bool := confExt path = some ".override".toList

/-- `is_conf_file`: there is a name before the extension. -/
def isConfFile (path : String) : Bool :=
  match strrchr path.toList '.' with
  | none => false
  | some i => 0 < i && path.toList[i - 1]? ≠ some '/' &&
      (isConfFileStd path || isConfFileOverride path)

/-- `conf_dir_filter` for what is not a directory: whether the path is left out. -/
def confDirFilter (sourcePath path : String) : Bool := sourcePath ≠ path && !isConfFile path

/-! ## The state of the sources -/

/-- The classes and files, with the flags of the sources and files, and whether a source is
watched. -/
structure ConfState where
  world : World
  /-- `source->flag` -/
  flag : Nat → Bool
  /-- `source->watch` -/
  watch : Nat → Bool
  /-- `file->flag` of the file of a source at a path -/
  fileFlag : Nat → String → Bool

/-- What is on the disk while a function runs: what `nih_file_read` gets from a path and the parser
makes of it, and what `lstat` calls a regular file. -/
structure Disk where
  read : String → Option Parsed
  lstatRegular : String → Bool

/-- What a walk comes to: a path, and whether its `statbuf` is one of a regular file. -/
structure DirEntry where
  path : String
  regular : Bool

/-- `conf_get_best_override`: the first override file of a name, up to a source. -/
def confGetBestOverride (disk : Disk) (w : World) (name : String) (lastSource : Nat) :
    Option String :=
  ((w.sources.take (lastSource + 1)).map fun dir => dir ++ "/" ++ name ++ ".override").find?
    disk.lstatRegular

/-- `conf_load_path_with_override`.  Where the file can be read there is a new `ConfFile`, which gets
the flag of the source from `conf_file_new`. -/
def ConfState.load (x : Host) (disk : Disk) (source : Nat) (path : String) (s : ConfState) :
    Except Fault ConfState := do
  let name := confToJobName (s.world.sources.getD source "") path
  let override := confGetBestOverride disk s.world name source
  let w ← confLoadPathWithOverride x s.world source path (disk.read path) (override.map disk.read)
  .ok { s with
    world := w
    fileFlag :=
      if (disk.read path).isSome then
        Function.update s.fileFlag source
          (Function.update (s.fileFlag source) path (s.flag source))
      else s.fileFlag }

/-- The file of a source that an override file belongs to. -/
def configPath (w : World) (name : String) (source : Nat) : String :=
  w.sources.getD source "" ++ "/" ++ name ++ ".conf"

/-- A file is loaded again, if the source has it. -/
def ConfState.loadAgain (x : Host) (disk : Disk) (name : String) (s : ConfState) (source : Nat) :
    Except Fault ConfState :=
  let path := configPath s.world name source
  if (s.world.confFile? source path).isSome then s.load x disk source path else .ok s

/-- `conf_create_modify_handler`.  Without a `statbuf` anything is taken for a regular file. -/
def confCreateModifyHandler (x : Host) (disk : Disk) (source : Nat) (path : String)
    (statbuf : Option Bool) (s : ConfState) : Except Fault ConfState :=
  if statbuf = some false then .ok s
  else if !isConfFile path then .ok s
  else if isConfFileStd path then s.load x disk source path
  else
    let name := confToJobName (s.world.sources.getD source "") path
    (List.range s.world.sources.length).foldlM (ConfState.loadAgain x disk name) s

/-- `conf_delete_handler`. -/
def confDelete (x : Host) (disk : Disk) (source : Nat) (path : String) (s : ConfState) :
    Except Fault ConfState :=
  let file := s.world.confFile? source path
  if file.isNone && !isConfFileOverride path then
    if s.world.sources.getD source "" = path then
      .ok { s with watch := Function.update s.watch source false }
    else .ok s
  else if !isConfFileOverride path then do
    let w ← confDeleteHandler s.world source path
    .ok { s with world := w }
  else confCreateModifyHandler x disk source path none s

/-- `conf_file_visitor`. -/
def confFileVisitor (x : Host) (disk : Disk) (source : Nat) (s : ConfState) (entry : DirEntry) :
    Except Fault ConfState :=
  if !entry.regular then .ok s
  else if isConfFileStd entry.path then s.load x disk source entry.path
  else .ok s

/-! ## Reloading -/

/-- What a reload comes to: the disk; what `nih_watch_new` finds below the directory, and whether
it succeeds; what `nih_dir_walk` finds, and whether it does. -/
structure ReloadInput where
  disk : Disk
  watched : List DirEntry
  watchOk : Bool
  walked : List DirEntry
  walkOk : Bool

/-- The entries that a walk of a source does not leave out. -/
def World.unfiltered (w : World) (source : Nat) (entries : List DirEntry) : List DirEntry :=
  entries.filter fun entry => !confDirFilter (w.sources.getD source "") entry.path

/-- `nih_dir_walk` in `conf_source_reload_dir`. -/
def walkSource (x : Host) (input : ReloadInput) (source : Nat) (s : ConfState) :
    Except Fault (ConfState × Int) := do
  let s ← (s.world.unfiltered source input.walked).foldlM (confFileVisitor x input.disk source) s
  .ok (s, if input.walkOk then 0 else -1)

/-- `conf_source_reload_dir`. -/
def confSourceReloadDir (x : Host) (input : ReloadInput) (source : Nat) (s : ConfState) :
    Except Fault (ConfState × Int) :=
  if s.watch source then walkSource x input source s
  else do
    let s ← (s.world.unfiltered source input.watched).foldlM
      (fun s entry => confCreateModifyHandler x input.disk source entry.path (some entry.regular) s)
      s
    if input.watchOk then .ok ({ s with watch := Function.update s.watch source true }, 0)
    else walkSource x input source s

/-- The file has another flag than its source. -/
def ConfState.isStale (s : ConfState) (source : Nat) (file : ConfFile) : Bool :=
  file.source = source && s.fileFlag source file.path ≠ s.flag source

/-- The end of `conf_source_reload`: the files with the wrong flag are taken out of the source, and
then destroyed. -/
def ConfState.sweep (source : Nat) (s : ConfState) : Except Fault ConfState := do
  let deleted := s.world.files.filter (s.isStale source)
  let kept := s.world.files.filter fun file => !s.isStale source file
  let w ← deleted.foldlM confFileDestroy { s.world with files := kept }
  .ok { s with world := w }

/-- The flag of a source is toggled. -/
def ConfState.toggle (source : Nat) (s : ConfState) : ConfState :=
  { s with flag := Function.update s.flag source (!s.flag source) }

/-- `conf_source_reload` of a directory. -/
def confSourceReload (x : Host) (input : ReloadInput) (source : Nat) (s : ConfState) :
    Except Fault (ConfState × Int) := do
  let (s, ret) ← confSourceReloadDir x input source (s.toggle source)
  let s ← s.sweep source
  .ok (s, ret)

/-- What happens to the sources. -/
inductive ConfEvent where
  | reload (source : Nat) (input : ReloadInput)
  /-- a file is created, moved to its place or modified -/
  | created (source : Nat) (path : String) (regular : Bool) (disk : Disk)
  | deleted (source : Nat) (path : String) (disk : Disk)
  /-- init does anything else -/
  | elsewhere (w : World)

/-- A step of init, on a host. -/
def ConfState.step (s : ConfState) (i : Host × ConfEvent) : Except Fault ConfState :=
  match i.2 with
  | .reload source input => do
    let (s, _) ← confSourceReload i.1 input source s
    .ok s
  | .created source path regular disk =>
    confCreateModifyHandler i.1 disk source path (some regular) s
  | .deleted source path disk => confDelete i.1 disk source path s
  | .elsewhere w => .ok { s with world := w }

/-- What events there may be: only `conf.c` has to do with the files. -/
def ConfEnabled (s : ConfState) (i : Host × ConfEvent) : Prop :=
  match i.2 with
  | .reload source _ => source < s.world.sources.length
  | .created source _ _ _ => source < s.world.sources.length
  | .deleted source _ _ => source < s.world.sources.length
  | .elsewhere w => w.files = s.world.files ∧ w.sources = s.world.sources ∧
      s.world.lastClass ≤ w.lastClass

/-- The states of init from its start, when it has no files, with any classes and flags. -/
abbrev ConfReached : ConfState → Prop :=
  Reach (fun s => s.world.files = []) ConfEnabled ConfState.step

end Startup
