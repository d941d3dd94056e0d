import Startup.Spawn.Child

/-!
# Starting a process (`init/job_process.c`)

The parent's half of `job_process_spawn_with_fd`, and `job_process_start` around it, which
calls it until it forks.

* `Attempt`: what one call finds.
* `spawnWithFd`: one call; `spawnUntilForked`: the loop.
* `openPipes`: the pipes that the process is given.
* `Start`: what is started, and the arguments of the child.
-/

namespace Startup.Spawn

open Lib.Descriptors ParseJob

/-- What init has when it starts a process. -/
structure Parent where
  table : Table File
  /-- `class->console` -/
  console : ConsoleType
  /-- the descriptor of `job->log[process]` -/
  log : Option Nat

/-- What a call of `job_process_spawn_with_fd` finds.  `piped` is false also where control groups
are needed and are not there, and `logged` where there is no memory for the path of the log. -/
structure Attempt where
  piped : Bool
  opened : Bool
  logged : Bool
  forked : Bool
  deriving DecidableEq

/-- What the fork leaves: the parent, and the child with the numbers that it knows. -/
structure Forked where
  parent : Parent
  child : Table File
  errorReader : Nat
  errorWriter : Nat
  ptyMaster : Nat

/-- The master of the terminal, which the log of the process gets; the log of an earlier process
is freed before. -/
def openMaster (p : Parent) (attempt : Attempt) : Parent × Option Nat :=
  let p := { p with table := p.table.closeIf p.log, log := none }
  if attempt.opened then
    let t := p.table.alloc ⟨.ptyMaster, true⟩
    if attempt.logged then ({ p with table := t.1, log := some t.2 }, some t.2)
    else ({ p with table := t.1.close t.2 }, none)
  else ({ p with console := .none }, none)

/-- The fork: the parent closes what is the child's; if it fails, everything that is new, and
the readiness pipe. -/
def forkChild (readyfd : Option Nat) (p : Parent) (attempt : Attempt) (reader writer : Nat)
    (master : Option Nat) : Parent × Option Forked :=
  if attempt.forked then
    let t := ((p.table.close writer).setCloexec reader true).closeIf readyfd
    let parent := { p with table := t }
    (parent, some ⟨parent, p.table, reader, writer, master.getD 0⟩)
  else
    let t := ((p.table.close reader).close writer).closeIf readyfd
    ({ p with table := t.closeIf master, log := if master.isSome then none else p.log }, none)

/-- The parent's half of `job_process_spawn_with_fd`. -/
def spawnWithFd (disableJobLogging : Bool) (readyfd : Option Nat) (p : Parent)
    (attempt : Attempt) : Parent × Option Forked :=
  if attempt.piped then
    let pipe := p.table.pipe .errorReader .errorWriter
    let reader := pipe.2.1
    let writer := pipe.2.2
    let console := if p.console = .log ∧ disableJobLogging then .none else p.console
    let p := { p with table := pipe.1, console := console }
    if console = .log then
      let r := openMaster p attempt
      match r.2 with
      | none => ({ r.1 with table := (r.1.table.close reader).close writer }, none)
      | some master => forkChild readyfd r.1 attempt reader writer (some master)
    else forkChild readyfd p attempt reader writer none
  else (p, none)

/-- `job_process_start` repeats the call until it forks. -/
def spawnUntilForked (disableJobLogging : Bool) (readyfd : Option Nat) :
    Parent → List Attempt → Option Forked
  | _, [] => none
  | p, attempt :: attempts =>
    let r := spawnWithFd disableJobLogging readyfd p attempt
    match r.2 with
    | some forked => some forked
    | none => spawnUntilForked disableJobLogging readyfd r.1 attempts

/-- The pipes that `job_process_start` makes: for a script that is too long for the command line,
and for the readiness of the main process. -/
structure Pipes where
  table : Table File
  scriptFd : Option Nat
  readyfd : Option Nat

/-- A pipe, if it is needed; one of its ends is closed when a program is executed. -/
def pipeIf (needed : Bool) (t : Table File) (reader writer : File) (own : Bool) :
    Table File × Option (Nat × Nat) :=
  if needed then
    let p := t.pipe reader writer
    (p.1.setCloexec (if own then p.2.1 else p.2.2) true, some p.2)
  else (t, none)

/-- Of the pipe for the script the process has the reading end, of the one for its readiness the
writing end. -/
def openPipes (script ready : Bool) (t : Table File) : Pipes :=
  let s := pipeIf script t .scriptReader .scriptWriter false
  let r := pipeIf ready s.1 .readyReader .readyWriter true
  ⟨r.1, s.2.map Prod.fst, r.2.map Prod.snd⟩

/-- `job_process_start`: the parent behind it, and the child that has been forked. -/
def startProcess (disableJobLogging script ready : Bool) (p : Parent) (attempts : List Attempt) :
    Option (Parent × Pipes × Forked) :=
  let pipes := openPipes script ready p.table
  (spawnUntilForked disableJobLogging pipes.readyfd { p with table := pipes.table } attempts).map
    fun forked =>
      ({ forked.parent with table := forked.parent.table.closeIf pipes.scriptFd }, pipes, forked)

/-! ## What is started -/

/-- `SHELL`. -/
def shell : String := "/bin/sh"

/-- The first line of what the shell is given: a command that is not a script is made to take
the place of the shell. -/
def commandText (proc : Process) : String :=
  let script := if proc.script then proc.command else "exec " ++ proc.command
  String.ofList (script.toList.takeWhile (· ≠ '\n'))

/-- The command line.  `strSplit` is `nih_str_split` at white space. -/
def commandLine (strSplit : String → List String) (proc : Process) : List String :=
  if proc.script || proc.command.toList.any shellChars then
    if (pipedScript shellChars proc).isSome then
      [shell, "-e", "/proc/self/fd/" ++ toString jobProcessScriptFd]
    else [shell, "-e", "-c", commandText proc, shell]
  else strSplit proc.command

/-- What `job_process_start` is called for, and what its attempts find. -/
structure Start where
  cls : ClassSettings
  console : ConsoleType
  process : ProcessType
  command : Process
  /-- `jobProcessEnvironment` -/
  env : List String
  userMode : Bool
  disableJobLogging : Bool
  strSplit : String → List String
  getenv : String → Option String
  attempts : List Attempt

namespace Start

/-- The shell reads the script from a pipe. -/
def script (x : Start) : Bool := (pipedScript shellChars x.command).isSome

/-- The main process says by itself when it is ready. -/
def ready (x : Start) : Bool := x.process = .main ∧ x.cls.expect = .readyfd

/-- The forks of the main process are followed. -/
def trace (x : Start) : Bool :=
  x.process = .main ∧ (x.cls.expect = .daemon ∨ x.cls.expect = .fork)

/-- The process is started by an init with these descriptors and this log of the process. -/
def run (x : Start) (table : Table File) (log : Option Nat) : Option (Parent × Pipes × Forked) :=
  startProcess x.disableJobLogging x.script x.ready ⟨table, x.console, log⟩ x.attempts

/-- What the child is called with. -/
def args (x : Start) (pipes : Pipes) (forked : Forked) : Args where
  cls := x.cls
  console := forked.parent.console
  process := x.process
  argv := commandLine x.strSplit x.command
  env := x.env
  trace := x.trace
  scriptFd := pipes.scriptFd
  readyfd := pipes.readyfd
  ptyMaster := forked.ptyMaster
  errorReader := forked.errorReader
  errorWriter := forked.errorWriter
  userMode := x.userMode
  getenv := x.getenv

end Start

end Startup.Spawn
