import Startup.Lib.PathText
import Startup.Lib.Sat
import Startup.Lib.Store

/-!
# The watches of the file bridge

The bridge in `extra/file.c` emits an event when a file that a job names is created,
modified or deleted.  It watches the first directory of the file that exists, and
moves the watch when directories are created and deleted.

* `watchedDirNew`, `findFirstParent`, `ensureWatched`, `watchedFileNew` and
  `jobDestroy`: what a job that comes or goes does to the watches;
* `fileFilter`, `createHandler`, `modifyHandler`, `deleteHandler`: what the notifications
  of a watch do.

Paths are texts and are compared as the source does, so that `strstr (a, b) == a` is
`b.isPrefixOf a`.  Hash tables with one entry for a key are stores, and the files
of a directory a list.
-/

namespace Startup.FileBridge

open Lib

/-! ## Data -/

/-- What the bridge gets from the C library and from the kernel. -/
structure Host where
  /-- `fnmatch` with `FNM_PATHNAME` -/
  fnmatch : Text → Text → Bool
  /-- the paths that match a pattern -/
  glob : Text → List Text
  /-- whether `nih_watch_new` can watch a path that exists -/
  watchable : Text → Bool

/-- The functions that can fail. -/
inductive SourceFn where
  | createHandler
  | modifyHandler
  | deleteHandler
  | watchedDirNew
  | findFirstParent
deriving DecidableEq, Repr

/-- A failed assertion, or the use of an object that has been freed. -/
inductive Fault where
  | assertFailed (fn : SourceFn)
  | useAfterFree (fn : SourceFn)
deriving DecidableEq, Repr

/-- What happens to a file: `IN_CREATE`, `IN_MODIFY` or `IN_CLOSE_WRITE`, `IN_DELETE`. -/
inductive FileOp where
  | create
  | modify
  | delete
deriving DecidableEq, Repr

/-- An event that is emitted. -/
structure FileEvent where
  path : Text
  event : FileOp
  /-- the value of `MATCH` -/
  match? : Option Text
deriving DecidableEq, Repr

/-- The address of a `WatchedFile`. -/
abbrev FileId := Nat

/-- `WatchedFile`; its `parent` is never read. -/
structure WatchedFile where
  id : FileId
  path : Text
  original : Option Text
  glob : Option Text
  dir : Bool
  events : List FileOp
deriving DecidableEq, Repr

/-- `original_path`. -/
def WatchedFile.originalPath (file : WatchedFile) : Text := file.original.getD file.path

/-- `WatchedDir`. -/
structure WatchedDir where
  path : Text
  files : List WatchedFile
  /-- the kernel still watches the directory: it has not been deleted since -/
  watching : Bool
deriving DecidableEq, Repr

instance : Keyed WatchedDir Text := ⟨WatchedDir.path⟩

/-- `Job`. -/
structure Job where
  path : Text
  files : List FileId
deriving DecidableEq, Repr

instance : Keyed Job Text := ⟨Job.path⟩

/-- The bridge, and the file system under it. -/
structure Bridge where
  jobs : Store Job
  watchedDirs : Store WatchedDir
  lastFile : FileId
  /-- the events that have been emitted, the latest last -/
  emitted : List FileEvent
  /-- what exists besides the root directory; `true` for directories -/
  tree : List (List Text × Bool)

namespace Bridge

/-- `stat`: whether the path exists, and is that of a directory. -/
def stat (b : Bridge) (path : Text) : Option Bool :=
  if components path = [] then some true
  else (b.tree.find? fun node => node.1 = components path).map Prod.snd

/-- A directory is written to the table. -/
def putDir (b : Bridge) (dir : WatchedDir) : Bridge :=
  { b with watchedDirs := b.watchedDirs.put dir }

/-- `handle_event` for the events of a handler: each of them is emitted once. -/
def handleEvents (b : Bridge) (events : List FileEvent) : Bridge :=
  let once := events.foldl (fun handled event =>
    if event ∈ handled then handled else handled ++ [event]) []
  { b with emitted := b.emitted ++ once }

end Bridge

/-- `nih_assert`. -/
def nihAssert (fn : SourceFn) (b : Bool) : Except Fault Unit := check (.assertFailed fn) b

/-! ## Jobs -/

/-- `watched_dir_new`.  Nothing is listed in the directory yet, so that the filter keeps
the handlers from seeing what it contains. -/
def watchedDirNew (x : Host) (b : Bridge) (path : Text) :
    Except Fault (Option (Bridge × WatchedDir)) := do
  nihAssert .watchedDirNew (b.watchedDirs.get? path).isNone
  if path.length ≤ 1 then .ok none
  else if x.watchable path then
    let dir : WatchedDir := ⟨path, [], true⟩
    .ok (some (b.putDir dir, dir))
  else .ok none

/-- The path that is handed to inotify. -/
def WatchedDir.watchedPath (dir : WatchedDir) : Text :=
  if dir.path.length > 1 ∧ dir.path.getLast? = some '/' then dir.path.dropLast else dir.path

/-- The paths that `find_first_parent` tries, at most `n` of them behind the first. -/
def parents : Nat → Text → List Text
  | 0, path => [path]
  | n + 1, path => path :: parents n (dirname path)

/-- `find_first_parent`; the root directory is tried at last. -/
def findFirstParent (b : Bridge) (path : Text) : Except Fault (Option Text) := do
  nihAssert .findFirstParent (path.head? = some '/')
  .ok ((parents path.length path).find? fun current =>
    (b.watchedDirs.get? current).isSome || (b.stat current).isSome)

/-- The arguments of `watched_file_new`, as `job_add_file` has read them. -/
structure FileInfo where
  path : Text
  original : Option Text
  events : List FileOp
  glob : Option Text
deriving DecidableEq, Repr

/-- `watched_file_new`. -/
def watchedFileNew (id : FileId) (info : FileInfo) : Option WatchedFile :=
  if info.path.length ≤ 1 then none
  else
    let dir : Bool := info.path.getLast? = some '/'
    some {
      id, dir, glob := info.glob, events := info.events
      path := if dir then info.path.dropLast else info.path
      original := if dir then some info.path else info.original }

/-- The path that `ensure_watched` watches for a file: that of a directory that exists,
or else the first parent. -/
def pathToWatch (b : Bridge) (file : WatchedFile) : Except Fault (Option Text) :=
  if (file.dir || file.glob.isSome) && (b.stat file.path).isSome then .ok (some file.path)
  else findFirstParent b file.path

/-- The directory that is watched already, or a new one. -/
def lookupDir (x : Host) (b : Bridge) (path : Text) :
    Except Fault (Option (Bridge × WatchedDir)) :=
  match b.watchedDirs.get? path with
  | some dir => .ok (some (b, dir))
  | none => watchedDirNew x b path

/-- `ensure_watched`. -/
def ensureWatched (x : Host) (b : Bridge) (job : Job) (file : WatchedFile) :
    Except Fault (Bridge × Job) := do
  match ← pathToWatch b file with
  | none => .ok (b, job)
  | some path =>
    match ← lookupDir x b path with
    | none => .ok (b, job)
    | some (b, dir) =>
      .ok (b.putDir { dir with files := dir.files ++ [file] },
        { job with files := job.files ++ [file.id] })

/-- The events for what exists already, which `job_add_file` emits. -/
def existing (x : Host) (b : Bridge) (file : WatchedFile) : List FileEvent :=
  if FileOp.create ∈ file.events then
    match file.glob with
    | some glob =>
      let pattern := file.path ++ '/' :: glob
      (x.glob pattern).map fun path => ⟨pattern, .create, some path⟩
    | none =>
      if (b.stat file.path).isSome then [⟨file.path, .create, none⟩] else []
  else []

/-- `job_add_file`, from where it has read what the job says. -/
def jobAddFile (x : Host) (s : Bridge × Job) (info : FileInfo) : Except Fault (Bridge × Job) :=
  match watchedFileNew (s.1.lastFile + 1) info with
  | none => .ok s
  | some file =>
    ensureWatched x { s.1 with
      lastFile := file.id
      emitted := s.1.emitted ++ existing x s.1 file } s.2 file

/-- Some files are freed, which takes them out of the table of the directory. -/
def WatchedDir.without (ids : List FileId) (dir : WatchedDir) : WatchedDir :=
  { dir with files := dir.files.filter fun file => file.id ∉ ids }

/-- `job_destroy`: the files of the job are freed. -/
def jobDestroy (b : Bridge) (job : Job) : Bridge :=
  { b with
    jobs := b.jobs.erase job.path
    watchedDirs := b.watchedDirs.map (WatchedDir.without job.files) fun _ => rfl }

/-- `upstart_job_removed`. -/
def upstartJobRemoved (b : Bridge) (path : Text) : Bridge :=
  match b.jobs.get? path with
  | none => b
  | some job => jobDestroy b job

/-- `upstart_job_added` for a job whose conditions name some files. -/
def upstartJobAdded (x : Host) (b : Bridge) (path : Text) (infos : List FileInfo) :
    Except Fault Bridge := do
  let b := upstartJobRemoved b path
  let (b, job) ← infos.foldlM (jobAddFile x) (b, ⟨path, []⟩)
  .ok (if job.files.isEmpty then b else { b with jobs := b.jobs.put job })

/-! ## The handlers -/

/-- `file_filter`: whether the path is to be ignored. -/
def fileFilter (dir : WatchedDir) (path : Text) : Bool :=
  let path := skipSlashes path
  dir.files.all fun file =>
    !path.isPrefixOf file.path &&
      !((file.dir || file.glob.isSome) && file.path.isPrefixOf path)

/-- The event for a file that is a pattern. -/
def globEvent (x : Host) (op : FileOp) (file : WatchedFile) (glob path : Text) :
    List FileEvent :=
  let fullPath := file.path ++ '/' :: glob
  if x.fnmatch fullPath path && op ∈ file.events then [⟨fullPath, op, some path⟩] else []

/-- What `create_handler` emits for a file. -/
def createEvents (x : Host) (dir : WatchedDir) (path : Text) (file : WatchedFile) :
    List FileEvent :=
  if file.dir then
    if file.path = dir.path then
      if FileOp.modify ∈ file.events then [⟨file.originalPath, .modify, some path⟩] else []
    else if file.path = path then [⟨file.originalPath, .create, none⟩] else []
  else
    match file.glob with
    | some glob => globEvent x .create file glob path
    | none =>
      if file.path = path ∧ FileOp.create ∈ file.events then [⟨file.path, .create, none⟩] else []

/-- `create_handler` moves a file to the directory that has been created. -/
def createMoves (dir : WatchedDir) (path : Text) (isDir : Bool) (file : WatchedFile) : Bool :=
  if file.dir then file.path ≠ dir.path && file.path = path
  else if file.glob.isSome then false
  else !(file.path = path && FileOp.create ∈ file.events) && path.isPrefixOf file.path && isDir

/-- What `create_handler` does with the files that it moves, `entries`: they have been taken
out of the table of the directory, in which `left` remains. -/
def moveFiles (x : Host) (b : Bridge) (left : WatchedDir) (entries : List WatchedFile)
    (path : Text) : Except Fault Bridge := do
  match ← watchedDirNew x (b.putDir left) path with
  -- the entries are in no table any more
  | none => .ok (b.putDir left)
  | some (b, newDir) =>
    let b := b.putDir { newDir with files := entries }
    .ok (if left.files.isEmpty then { b with watchedDirs := b.watchedDirs.erase left.path }
      else b)

/-- `create_handler`. -/
def createHandler (x : Host) (b : Bridge) (dir : WatchedDir) (path : Text) (isDir : Bool) :
    Except Fault Bridge := do
  let path := skipSlashes path
  nihAssert .createHandler (dir.path.isPrefixOf path)
  let b := b.handleEvents (dir.files.flatMap (createEvents x dir path))
  let (entries, left) := dir.files.partition (createMoves dir path isDir)
  if entries.isEmpty then .ok b
  else moveFiles x b { dir with files := left } entries path

/-- What `modify_handler` emits for a file. -/
def modifyEvents (x : Host) (dir : WatchedDir) (path : Text) (file : WatchedFile) :
    List FileEvent :=
  if FileOp.modify ∉ file.events then []
  else if file.dir then
    if file.path = dir.path then [⟨file.originalPath, .modify, some path⟩] else []
  else
    match file.glob with
    | some glob => globEvent x .modify file glob path
    | none => if file.path = path then [⟨file.originalPath, .modify, none⟩] else []

/-- `modify_handler`. -/
def modifyHandler (x : Host) (b : Bridge) (dir : WatchedDir) (path : Text) :
    Except Fault Bridge := do
  nihAssert .modifyHandler (dir.path.isPrefixOf path)
  let path := skipSlashes path
  .ok (b.handleEvents (dir.files.flatMap (modifyEvents x dir path)))

/-- What `delete_handler` emits for a file. -/
def deleteEvents (x : Host) (dir : WatchedDir) (path : Text) (file : WatchedFile) :
    List FileEvent :=
  if file.dir then
    if file.path = path then [⟨file.originalPath, .delete, none⟩]
    else if file.path = dir.path ∧ FileOp.modify ∈ file.events then
      [⟨file.originalPath, .modify, some path⟩]
    else []
  else
    match file.glob with
    | some glob => globEvent x .delete file glob path
    | none =>
      if file.path = path ∧ FileOp.delete ∈ file.events then
        [⟨file.originalPath, .delete, none⟩]
      else []

/-- `delete_handler` moves a file to the directory above. -/
def deleteMoves (path : Text) (file : WatchedFile) : Bool :=
  !file.dir && file.glob.isNone &&
    !(file.path = path && FileOp.delete ∈ file.events) && path.isPrefixOf file.path

/-- `delete_handler`.  When files are to be moved the directory is freed, together with the
table of its files, and its path is read after that: what the handler goes on to do
has no meaning. -/
def deleteHandler (x : Host) (b : Bridge) (dir : WatchedDir) (path : Text) :
    Except Fault Bridge := do
  nihAssert .deleteHandler (dir.path.isPrefixOf path)
  let path := skipSlashes path
  let b := b.handleEvents (dir.files.flatMap (deleteEvents x dir path))
  if dir.files.any (deleteMoves path) then .error (.useAfterFree .deleteHandler)
  else .ok b

/-! ## Notifications -/

/-- What happens in the file system. -/
inductive TreeInput where
  | created (path : List Text) (isDir : Bool)
  | modified (path : List Text)
  | deleted (path : List Text)

namespace TreeInput

/-- The path that is concerned. -/
def path : TreeInput → List Text
  | created path _ | modified path | deleted path => path

/-- What exists afterwards. -/
def apply (tree : List (List Text × Bool)) : TreeInput → List (List Text × Bool)
  | created path isDir => tree ++ [(path, isDir)]
  | modified _ => tree
  | deleted path => tree.filter fun node => node.1 ≠ path

end TreeInput

/-- The handler that `nih_watch` calls for what happens in the directory of a watch,
unless the filter says no. -/
def notifyChild (x : Host) (b : Bridge) (dir : WatchedDir) (name : Text) (i : TreeInput) :
    Except Fault Bridge :=
  let path := dir.watchedPath ++ '/' :: name
  if fileFilter dir path then .ok b
  else
    match i with
    | .created _ isDir => createHandler x b dir path isDir
    | .modified _ => modifyHandler x b dir path
    | .deleted _ => deleteHandler x b dir path

/-- The directory of a watch has been deleted itself; its watch is removed. -/
def notifySelf (x : Host) (b : Bridge) (dir : WatchedDir) : Except Fault Bridge := do
  let b ← deleteHandler x b dir dir.watchedPath
  .ok (b.putDir { dir with watching := false })

/-- What a watch makes of what happens in the file system. -/
def notify (x : Host) (i : TreeInput) (b : Bridge) (watched : Text) : Except Fault Bridge :=
  match b.watchedDirs.get? watched with
  | none => .ok b
  | some dir =>
    if !dir.watching then .ok b
    else if components dir.path = i.path then
      match i with
      | .deleted _ => notifySelf x b dir
      | _ => .ok b
    else if components dir.path = i.path.dropLast then
      notifyChild x b dir (i.path.getLastD []) i
    else .ok b

/-- Something happens in the file system, and every watch is notified. -/
def treeStep (x : Host) (b : Bridge) (i : TreeInput) : Except Fault Bridge :=
  (b.watchedDirs.items.map WatchedDir.path).foldlM (notify x i)
    { b with tree := i.apply b.tree }

end Startup.FileBridge
