import Startup.Lib.Descriptors
import Startup.Lib.Hoare
import Startup.ParseJob.Stanzas
import Startup.World.CGroupSetup

/-!
# The child between `fork` and `exec` (`init/job_process.c`)

`job_process_spawn_with_fd` sets the child up for its class, one call after the other, and
executes the program.  A call that fails makes the child write an error into the pipe to its
parent, and exit.

* `Call`, `Kernel`: the calls, and which of them fail, after those that came before.
* `Child`: what the calls change.
* `Stop`: the ways in which a child ends before the program is executed.
* `childSetUp`: the child's half of `job_process_spawn_with_fd`.
-/

namespace Startup.Spawn

open Lib Lib.Descriptors ParseJob

/-! ## Errors -/

/-- `JobProcessErrorType`. -/
inductive JobProcessErrorType where
  | dup
  | console
  | rlimit
  | priority
  | oomAdj
  | chroot
  | chdir
  | ptrace
  | exec
  | getpwnam
  | getgrnam
  | getpwuid
  | badSetuid
  | badSetgid
  | setuid
  | setgid
  | chown
  | unlockpt
  | grantpt
  | ptsname
  | openptSlave
  | signal
  | alloc
  | initgroups
  | getgrgid
  | security
  | cgroupMgrConnect
  | cgroupSetup
  | cgroupEnter
  | cgroupClear
  deriving DecidableEq, Repr

/-- The number of a raised error: a value of `errno`, or one of `init/errors.h`.  `cgroup`
stands for whatever the functions of `init/cgroup.c` have raised. -/
inductive ErrorNumber where
  | errno (n : Nat)
  | environ (e : EnvironError)
  | invalidSetuid
  | invalidSetgid
  | cgroup
  deriving DecidableEq, Repr

/-- `JobProcessWireError`. -/
structure WireError where
  type : JobProcessErrorType
  arg : Nat
  errnum : ErrorNumber
  deriving DecidableEq, Repr

/-! ## Calls -/

/-- What a descriptor is open on.  `inherited` are the files that init has open otherwise. -/
inductive File where
  | inherited (n : Nat)
  | errorReader
  | errorWriter
  | scriptReader
  | scriptWriter
  | readyReader
  | readyWriter
  | ptyMaster
  | ptySlave
  | console
  | devNull
  deriving DecidableEq, Repr

/-- The calls that can fail. -/
inductive Call where
  | dup (fd : Nat)
  | sigaction (restore : Bool)
  | grantpt (fd : Nat)
  | unlockpt (fd : Nat)
  | openSlave
  | dup2 (fd new : Nat)
  | openConsole (type : ConsoleType)
  | apparmor (profile : String)
  | setrlimit (resource : Fin rlimitNlimits) (limit : Rlimit)
  | setpriority (nice : Int)
  | openOom (old : Bool)
  | writeOom (value : Int)
  | chroot (path : String)
  | chdir (path : String)
  | getpwnam (name : String)
  | getgrnam (name : String)
  | fchown (fd uid gid : Nat)
  | getpwuid (uid : Nat)
  | getgrgid (gid : Nat)
  | initgroups (user : String) (gid : Nat)
  | managerConnect
  | cgroup (call : CGroupCall)
  | removeOnEmpty (controller : String) (path : List Char)
  | setgid (gid : Nat)
  | setuid (uid : Nat)
  | movePid (controller : String) (path : List Char)
  | traceMe
  | exec (argv : List String)

/-- The descriptor that a call is given. -/
def Call.descriptor : Call → Option Nat
  | .dup fd | .grantpt fd | .unlockpt fd | .dup2 fd _ | .fchown fd _ _ => some fd
  | _ => none

/-- `struct passwd`. -/
structure Passwd where
  name : String
  uid : Nat
  gid : Nat
  deriving DecidableEq, Repr

/-- What the child meets.  `fails` says whether a call fails, after the earlier ones, and with
which `errno`.  The user and the group database are those below a root directory. -/
structure Kernel where
  fails : List Call → Call → Option Nat
  getpwnam : Option String → String → Option Passwd
  getgrnam : Option String → String → Option Nat
  /-- the name that `getpwuid` finds -/
  userName : Option String → Nat → String
  apparmorAvailable : Bool
  /-- `cgroup_support_enabled ()` -/
  supportEnabled : Bool
  /-- `cgroup_manager_available ()` -/
  managerAvailable : Bool

/-! ## The state of the child -/

/-- The child.  Its ids are the effective ones, and `none` is what it has from init. -/
structure Child where
  /-- the calls that can fail, in their order -/
  calls : List Call
  fds : Table File
  leader : Bool
  environ : List String
  limits : Fin rlimitNlimits → Option Rlimit
  umask : Option Int
  nice : Option Int
  /-- what has been written to `oom_score_adj`, or to the older `oom_adj` -/
  oom : Option (Bool × Int)
  root : Option String
  /-- the working directory, below the root at that time -/
  cwd : Option (Option String × String)
  uid : Nat
  gid : Nat
  /-- the user and the group that `initgroups` was called for -/
  groups : Option (String × Nat)
  profile : Option String
  signalsReset : Bool
  paused : Bool
  traced : Bool
  /-- whether there is a connection to the cgroup manager -/
  connected : Bool
  /-- the groups of the class, with the paths they have been expanded to -/
  cgroups : List (String × List Char)
  /-- the groups that it has been moved to -/
  members : List (String × List Char)
  /-- the owner that the script has been given -/
  scriptOwner : Option (Nat × Nat)

/-- How a child ends before it executes the program.  `aborted` has what the error pipe's
number is open on when the error is written; `hung` writes to a number that is closed, again
and again. -/
inductive Stop where
  | aborted (child : Child) (file : File) (error : WireError)
  | hung (child : Child) (error : WireError)
  | crashed (child : Child)

abbrev SetUp (α : Type) := StateT Child (Except Stop) α

/-- `EBADF`. -/
def ebadf : Nat := 9

/-- `ENOENT`. -/
def enoent : Nat := 2

/-- `(uid_t) -1` and `(gid_t) -1`. -/
def noId : Nat := 2 ^ 32 - 1

/-- `JOB_PROCESS_SCRIPT_FD`. -/
def jobProcessScriptFd : Nat := 9

/-- Whether a call fails, and why. -/
def Kernel.failure (k : Kernel) (s : Child) (c : Call) : Option Nat :=
  match c.descriptor with
  | some fd => if (s.fds.get fd).isNone then some ebadf else k.fails s.calls c
  | none => k.fails s.calls c

/-- `job_process_error_abort`. -/
def jobProcessErrorAbort {α : Type} (fd : Nat) (type : JobProcessErrorType) (arg : Nat)
    (errnum : ErrorNumber) : SetUp α := fun s =>
  match s.fds.get fd with
  | none => .error (.hung s ⟨type, arg, errnum⟩)
  | some e => .error (.aborted s e.file ⟨type, arg, errnum⟩)

/-- The child has made a call. -/
def Child.made (s : Child) (c : Call) : Child := { s with calls := s.calls ++ [c] }

/-- A call whose failure is told to the parent. -/
def call (k : Kernel) (err : Nat) (type : JobProcessErrorType) (arg : Nat) (c : Call)
    (effect : Child → Child) : SetUp Unit := fun s =>
  match k.failure s c with
  | some n => jobProcessErrorAbort err type arg (.errno n) (s.made c)
  | none => .ok ((), effect (s.made c))

/-- A call whose failure the child looks at. -/
def tryCall (k : Kernel) (c : Call) (effect : Child → Child) : SetUp (Option Nat) := fun s =>
  match k.failure s c with
  | some n => .ok (some n, s.made c)
  | none => .ok (none, effect (s.made c))

/-- The table of descriptors changes. -/
def onTable (f : Table File → Table File) (s : Child) : Child := { s with fds := f s.fds }

def closeFd (fd : Nat) : SetUp Unit := modify (onTable (·.close fd))

/-- `nih_io_set_cloexec`. -/
def setCloexec (fd : Nat) : SetUp Unit := modify (onTable (·.setCloexec fd true))

/-- A step that is only taken under a condition. -/
def onlyIf (c : Prop) [Decidable c] (m : SetUp Unit) : SetUp Unit := if c then m else pure ()

/-! ## The steps -/

/-- What `job_process_spawn_with_fd` is called with, and what it has when it forks.  The master
of the terminal is only there where the output is logged. -/
structure Args where
  cls : ClassSettings
  /-- `class->console` -/
  console : ConsoleType
  process : ProcessType
  argv : List String
  env : List String
  trace : Bool
  scriptFd : Option Nat
  readyfd : Option Nat
  ptyMaster : Nat
  errorReader : Nat
  errorWriter : Nat
  userMode : Bool
  /-- the environment of init -/
  getenv : String → Option String

/-- `dup`, which takes the lowest number. -/
def dup (k : Kernel) (err fd : Nat) : SetUp Nat := do
  let s ← get
  call k err .dup 0 (.dup fd) (onTable fun t => ((t.dup fd).map Prod.fst).getD t)
  pure s.fds.lowest

/-- `job_process_remap_fd`. -/
def jobProcessRemapFd (k : Kernel) (fd reserved err : Nat) : SetUp Nat :=
  if fd ≠ reserved then pure fd
  else do
    let new ← dup k err fd
    closeFd fd
    pure new

/-- The pipe to the parent: the reading end is closed, the writing end is kept out of the way
of the script and of the program. -/
def keepErrorPipe (k : Kernel) (a : Args) : SetUp Nat := do
  closeFd a.errorReader
  let err ← jobProcessRemapFd k a.errorWriter jobProcessScriptFd a.errorWriter
  setCloexec err
  pure err

/-- The readiness pipe, and the environment with its number. -/
def keepReadyPipe (k : Kernel) (a : Args) (err : Nat) : SetUp (List String) :=
  match a.readyfd with
  | none => pure a.env
  | some readyfd => do
    let readyfd ← jobProcessRemapFd k readyfd jobProcessScriptFd err
    pure (environAdd a.getenv a.env true ("READY_FD=" ++ toString readyfd))

/-- The master of the terminal, which is not the child's. -/
def keepMaster (k : Kernel) (a : Args) (err : Nat) : SetUp Nat := do
  let master ← jobProcessRemapFd k a.ptyMaster jobProcessScriptFd err
  setCloexec master
  pure master

/-- The slave gets its owner and is unlocked, with the default action for `SIGCHLD` while the
former is done.  `ptsname_r` returns a positive number when it fails, which the check for a
negative one does not see. -/
def unlockTerminal (k : Kernel) (err master : Nat) : SetUp Unit := do
  call k err .signal 0 (.sigaction false) id
  call k err .grantpt 0 (.grantpt master) id
  call k err .signal 0 (.sigaction true) id
  call k err .unlockpt 0 (.unlockpt master) id

/-- The slave is opened. -/
def openSlave (k : Kernel) (err : Nat) : SetUp Nat := do
  let s ← get
  call k err .openptSlave 0 .openSlave (onTable fun t => (t.alloc ⟨.ptySlave, false⟩).1)
  jobProcessRemapFd k s.fds.lowest jobProcessScriptFd err

/-- The terminal that the output goes to, where it is logged. -/
def openTerminal (k : Kernel) (a : Args) (err : Nat) : SetUp (Option Nat) :=
  if a.console = .log then do
    let master ← keepMaster k a err
    unlockTerminal k err master
    let slave ← openSlave k err
    pure (some slave)
  else pure none

/-- The script goes to its number. -/
def moveScript (k : Kernel) (a : Args) (err : Nat) : SetUp (Option Nat) :=
  match a.scriptFd with
  | none => pure none
  | some fd =>
    if fd ≠ jobProcessScriptFd then do
      call k err .dup 0 (.dup2 fd jobProcessScriptFd)
        (onTable fun t => (t.dup2 fd jobProcessScriptFd).getD t)
      closeFd fd
      pure (some jobProcessScriptFd)
    else pure (some fd)

/-- `setsid`, and the environment. -/
def becomeLeader (env : List String) : SetUp Unit :=
  modify fun s => { s with leader := true, environ := env }

/-- The file that is opened for the console. -/
def consoleFile : ConsoleType → File
  | .output | .owner => .console
  | .log | .none => .devNull

/-- A file is opened three times, after the standard descriptors have been closed. -/
def openStandard (file : File) (t : Table File) : Table File :=
  let t := (t.alloc ⟨file, false⟩).1
  let t := (t.alloc ⟨file, false⟩).1
  (t.alloc ⟨file, false⟩).1

/-- `system_setup_console`, without a reset.  The `dup`s are repeated until they succeed. -/
def systemSetupConsole (k : Kernel) (type : ConsoleType) : SetUp (Option Nat) := do
  closeFd 0
  closeFd 1
  closeFd 2
  tryCall k (.openConsole type) (onTable (openStandard (consoleFile type)))

/-- The standard descriptors. -/
def setUpConsole (k : Kernel) (a : Args) (err : Nat) : SetUp Unit := do
  match ← systemSetupConsole k a.console with
  | none => pure ()
  | some n =>
    if a.console = .output then do
      match ← systemSetupConsole k .none with
      | none => pure ()
      | some n => jobProcessErrorAbort err .console 0 (.errno n)
    else jobProcessErrorAbort err .console 0 (.errno n)

/-- The output goes to the terminal. -/
def redirectOutput (k : Kernel) (err : Nat) : Option Nat → SetUp Unit
  | none => pure ()
  | some slave => do
    call k err .dup 0 (.dup2 slave 1) (onTable fun t => (t.dup2 slave 1).getD t)
    call k err .dup 0 (.dup2 slave 2) (onTable fun t => (t.dup2 slave 2).getD t)
    closeFd slave

/-- `apparmor_switch`, for the main process. -/
def switchProfile (k : Kernel) (a : Args) (env : List String) (err : Nat) : SetUp Unit :=
  match a.cls.apparmorSwitch with
  | none => pure ()
  | some profile =>
    if a.process = .main then
      match environExpand profile env with
      | .error e => jobProcessErrorAbort err .security 0 (.environ e)
      | .ok profile =>
        if k.apparmorAvailable then
          call k err .security 0 (.apparmor profile) fun s => { s with profile := some profile }
        else pure ()
    else pure ()

/-- The resource limits that the class sets. -/
def limitResources (k : Kernel) (a : Args) (err : Nat) : SetUp Unit :=
  (List.finRange rlimitNlimits).forM fun i =>
    match a.cls.limits i with
    | none => pure ()
    | some limit => call k err .rlimit i (.setrlimit i limit) fun s =>
        { s with limits := Function.update s.limits i (some limit) }

/-- The mask and the priority. -/
def setPriority (k : Kernel) (a : Args) (err : Nat) : SetUp Unit := do
  modify fun s => { s with umask := some a.cls.umask }
  -- `JOB_NICE_INVALID`
  onlyIf (a.cls.nice ≠ -21)
    (call k err .priority 0 (.setpriority a.cls.nice) fun s => { s with nice := some a.cls.nice })

/-- The value for the file that older kernels have. -/
def oldOomValue (score : Int) : Int := (score * (if score < 0 then 17 else 15)).tdiv 1000

/-- The value is written to the file that has been opened. -/
def writeOom (k : Kernel) (err : Nat) (old : Bool) (value : Int) : SetUp Unit :=
  call k err .oomAdj 0 (.writeOom value) fun s => { s with oom := some (old, value) }

/-- How readily the process is killed when the memory runs out. -/
def adjustOom (k : Kernel) (a : Args) (err : Nat) : SetUp Unit :=
  -- `JOB_DEFAULT_OOM_SCORE_ADJ`
  onlyIf (a.cls.oomScoreAdj ≠ 0) do
    match ← tryCall k (.openOom false) id with
    | none => writeOom k err false a.cls.oomScoreAdj
    | some n =>
      if n = enoent then do
        call k err .oomAdj 0 (.openOom true) id
        writeOom k err true (oldOomValue a.cls.oomScoreAdj)
      else jobProcessErrorAbort err .oomAdj 0 (.errno n)

/-- The root directory. -/
def changeRoot (k : Kernel) (a : Args) (err : Nat) : SetUp Unit :=
  match a.cls.chroot with
  | none => pure ()
  | some path => call k err .chroot 0 (.chroot path) fun s => { s with root := some path }

/-- The working directory, below the root. -/
def changeDirectory (k : Kernel) (a : Args) (err : Nat) : SetUp Unit :=
  let path := a.cls.chdir.getD "/"
  onlyIf (a.cls.chdir.isSome ∨ a.userMode = false)
    (call k err .chdir 0 (.chdir path) fun s => { s with cwd := some (s.root, path) })

/-- The ids that have been looked up; `noId` where there is none. -/
structure Ids where
  uid : Nat
  gid : Nat
  user : Option String
  group : Option Nat

/-- The user of the class, in the database below the root. -/
def lookUpUser (k : Kernel) (err : Nat) (name : String) : SetUp Passwd := do
  call k err .getpwnam 0 (.getpwnam name) id
  let s ← get
  match k.getpwnam s.root name with
  | none => jobProcessErrorAbort err .badSetuid 0 .invalidSetuid
  | some pwd => pure pwd

/-- The group of the class. -/
def lookUpGroup (k : Kernel) (err : Nat) (name : String) : SetUp Nat := do
  call k err .getgrnam 0 (.getgrnam name) id
  let s ← get
  match k.getgrnam s.root name with
  | none => jobProcessErrorAbort err .badSetgid 0 .invalidSetgid
  | some gid => pure gid

/-- The ids of the user. -/
def userIds (k : Kernel) (a : Args) (err : Nat) : SetUp Ids :=
  match a.cls.setuid with
  | none => pure ⟨noId, noId, none, none⟩
  | some name => do
    let pwd ← lookUpUser k err name
    pure ⟨pwd.uid, pwd.gid, some pwd.name, none⟩

/-- The ids of the user, where the group of the class overrides that of the user. -/
def lookUpIds (k : Kernel) (a : Args) (err : Nat) : SetUp Ids := do
  let ids ← userIds k a err
  match a.cls.setgid with
  | none => pure ids
  | some name => do
    let gid ← lookUpGroup k err name
    pure { ids with gid := gid, group := some gid }

/-- The script is given to the user. -/
def giveScript (k : Kernel) (err : Nat) (script : Option Nat) (ids : Ids) : SetUp Unit :=
  match script with
  | none => pure ()
  | some fd =>
    onlyIf (ids.uid ≠ noId ∨ ids.gid ≠ noId)
      (call k err .chown 0 (.fchown fd ids.uid ids.gid) fun s =>
        { s with scriptOwner := some (ids.uid, ids.gid) })

/-- The user whose groups the process gets: that of the class, else that of init. -/
def groupUser (k : Kernel) (err : Nat) (ids : Ids) : SetUp String :=
  match ids.user with
  | some user => pure user
  | none => do
    let s ← get
    call k err .getpwuid 0 (.getpwuid s.uid) id
    pure (k.userName s.root s.uid)

/-- The group that is among them: that of the class, else that of init. -/
def extraGroup (k : Kernel) (err : Nat) (ids : Ids) : SetUp Nat :=
  match ids.group with
  | some group => pure group
  | none => do
    let s ← get
    call k err .getgrgid 0 (.getgrgid s.gid) id
    pure s.gid

/-- `initgroups`, where init is root. -/
def initGroups (k : Kernel) (err : Nat) (ids : Ids) : SetUp Unit := do
  let s ← get
  onlyIf (s.uid = 0) do
    let user ← groupUser k err ids
    let group ← extraGroup k err ids
    call k err .initgroups 0 (.initgroups user group) fun s =>
      { s with groups := some (user, group) }

/-- `job_last_process`. -/
def jobLastProcess (cls : ClassSettings) (process : ProcessType) : Bool :=
  (ProcessType.all.filter fun p => (cls.process p).isSome).getLast? == some process

/-- What `cgroup_setup` meets in the child. -/
def Kernel.cgroupHost (k : Kernel) (s : Child) : CGroupHost where
  supportEnabled := k.supportEnabled
  managerAvailable := k.managerAvailable
  geteuid := s.uid
  getegid := s.gid
  answers := fun done c => (k.fails (s.calls ++ done.map .cgroup) (.cgroup c)).isNone

/-- The path of a group: the expanded name, where it has been kept. -/
def groupPath (name : CGroupName) : List Char :=
  (name.expanded.getD name.name).toList

/-- `cgroup_setup` in the child. -/
def setUpGroups (k : Kernel) (a : Args) (env : List String) (err uid gid : Nat) :
    SetUp Unit := fun s =>
  match Startup.cgroupSetup a.getenv (k.cgroupHost s) a.cls.cgroups env uid gid with
  | .error _ => .error (.crashed s)
  | .ok (steps, done) =>
    let s := { s with calls := s.calls ++ (steps.flatMap CGroupStep.calls).map .cgroup }
    if done then
      .ok ((), if k.supportEnabled then
        { s with cgroups := steps.map fun step => (step.controller, groupPath step.cgname) }
        else s)
    else jobProcessErrorAbort err .cgroupSetup 0 .cgroup s

/-- A request to the cgroup manager. -/
def ask (k : Kernel) (err : Nat) (type : JobProcessErrorType) (c : Call)
    (effect : Child → Child) : SetUp Unit := fun s =>
  match k.failure s c with
  | some _ => jobProcessErrorAbort err type 0 .cgroup (s.made c)
  | none => .ok ((), effect (s.made c))

/-- `cgroup_clear`. -/
def clearGroups (k : Kernel) (err : Nat) : SetUp Unit := do
  let s ← get
  onlyIf k.supportEnabled
    (s.cgroups.forM fun group => ask k err .cgroupClear (.removeOnEmpty group.1 group.2) id)

/-- The groups of the class, where it has any. -/
def makeGroups (k : Kernel) (a : Args) (env : List String) (err : Nat) (ids : Ids) :
    SetUp Unit :=
  onlyIf (a.cls.cgroups ≠ []) do
    ask k err .cgroupMgrConnect .managerConnect fun s => { s with connected := true }
    let s ← get
    setUpGroups k a env err (if a.cls.setuid.isSome then ids.uid else s.uid)
      (if a.cls.setgid.isSome then ids.gid else s.gid)
    onlyIf (jobLastProcess a.cls a.process) (clearGroups k err)

/-- `setgid`, then `setuid`. -/
def dropPrivileges (k : Kernel) (err : Nat) (ids : Ids) : SetUp Unit := do
  onlyIf (ids.gid ≠ noId)
    (call k err .setgid 0 (.setgid ids.gid) fun s => { s with gid := ids.gid })
  onlyIf (ids.uid ≠ noId)
    (call k err .setuid 0 (.setuid ids.uid) fun s => { s with uid := ids.uid })

/-- The error pipe, the environment and the script, where the descriptors have been arranged. -/
structure Plumbing where
  err : Nat
  env : List String
  script : Option Nat

/-- What the class sets, for every process but the security one. -/
def applySettings (k : Kernel) (a : Args) (p : Plumbing) : SetUp Unit := do
  limitResources k a p.err
  setPriority k a p.err
  adjustOom k a p.err
  changeRoot k a p.err
  changeDirectory k a p.err
  let ids ← lookUpIds k a p.err
  giveScript k p.err p.script ids
  initGroups k p.err ids
  makeGroups k a p.env p.err ids
  dropPrivileges k p.err ids

/-- `nih_signal_reset`, and the pause of the `debug` stanza, before which the pipe is closed. -/
def resetSignals (a : Args) (err : Nat) : SetUp Unit := do
  modify fun s => { s with signalsReset := true }
  onlyIf a.cls.debug do
    closeFd err
    modify fun s => { s with paused := true }

/-- `nih_assert` in the child. -/
def assertChild (b : Bool) : SetUp Unit := fun s => if b then .ok ((), s) else .error (.crashed s)

/-- `cgroup_enter`, which asserts that there is a connection. -/
def enterGroup (k : Kernel) (err : Nat) (group : String × List Char) : SetUp Unit := do
  let s ← get
  assertChild s.connected
  ask k err .cgroupEnter (.movePid group.1 group.2)
    fun s => { s with members := s.members ++ [group] }

/-- `cgroup_enter_groups`. -/
def enterGroups (k : Kernel) (a : Args) (err : Nat) : SetUp Unit :=
  onlyIf (a.cls.cgroups ≠ []) do
    assertChild k.managerAvailable
    let s ← get
    onlyIf k.supportEnabled (s.cgroups.forM (enterGroup k err))

/-- The trace, and the program. -/
def execute (k : Kernel) (a : Args) (err : Nat) : SetUp Unit := do
  onlyIf a.trace (call k err .ptrace 0 .traceMe fun s => { s with traced := true })
  call k err .exec 0 (.exec a.argv) (onTable Table.exec)

/-- The descriptors, where the error pipe is out of the way. -/
def arrangeOthers (k : Kernel) (a : Args) (err : Nat) : SetUp Plumbing := do
  let env ← keepReadyPipe k a err
  let slave ← openTerminal k a err
  let script ← moveScript k a err
  becomeLeader env
  setUpConsole k a err
  redirectOutput k err slave
  pure ⟨err, env, script⟩

/-- The child up to the standard descriptors. -/
def arrangeDescriptors (k : Kernel) (a : Args) : SetUp Plumbing := do
  let err ← keepErrorPipe k a
  arrangeOthers k a err

/-- The child from the standard descriptors to the program. -/
def prepare (k : Kernel) (a : Args) (p : Plumbing) : SetUp Unit := do
  switchProfile k a p.env p.err
  onlyIf (a.process ≠ .security) (applySettings k a p)
  resetSignals a p.err
  enterGroups k a p.err

/-- The child's half of `job_process_spawn_with_fd`. -/
def childSetUp (k : Kernel) (a : Args) : SetUp Unit := do
  let p ← arrangeDescriptors k a
  prepare k a p
  execute k a p.err

end Startup.Spawn
