import Startup.Lib.Run
import Startup.Spawn.Executed
import Startup.Spawn.Forked

/-!
# Runs of init that start processes

Init starts processes of its jobs, one after the other, and in between it opens and closes
descriptors of its own.

* `reached_exec`: whatever it has started, init leaves to a program what it left to the first.
* `reached_executed`: every child executes its program, which finds its own descriptors and no
  other process's, with the settings of its class; or it tells init which call failed.

With a readiness pipe the first attempt has to fork: a fork that fails closes the writing end of
the pipe, and the next attempt hands its number on all the same.
-/

namespace Startup.Spawn

open Lib Lib.Descriptors ParseJob

/-! ## Init -/

/-- A process of a job. -/
abbrev JobProcess := JobId × ProcessType

/-- Init: its descriptors, and those of the logs of its processes. -/
structure Init where
  table : Table File
  logs : JobProcess → Option Nat

/-- What init does. -/
inductive InitInput where
  /-- `job_process_start` -/
  | start (job : JobId) (x : Start)
  /-- something else, after which the descriptors are these -/
  | other (table : Table File) (logs : JobProcess → Option Nat)

/-- The step that an input makes init take; init goes on trying until it has forked. -/
def initStep (s : Init) : InitInput → Except Unit Init
  | .start job x =>
    match x.run s.table (s.logs (job, x.process)) with
    | none => .error ()
    | some r => .ok ⟨r.1.table, Function.update s.logs (job, x.process) r.1.log⟩
  | .other table logs => .ok ⟨table, logs⟩

/-- Init has all its descriptors closed when a program is executed, and it lets the terminals of
the logs be, until it frees a log. -/
def InitEnabled (s : Init) : InitInput → Prop
  | .start _ x => x.ready = true → ∀ attempt ∈ x.attempts, attempt.forked = true
  | .other table logs => table.exec = s.table.exec ∧
      ∀ key fd, logs key = some fd → s.logs key = some fd ∧ table.get fd = s.table.get fd

/-- Before the first start there are no logs. -/
def atBoot (table : Table File) (s : Init) : Prop := s = ⟨table, fun _ => none⟩

/-! ## The invariant -/

/-- What init leaves to other programs, and the logs, each of which has a descriptor of its own. -/
structure Orderly (view : Table File) (s : Init) : Prop where
  exec : s.table.exec = view
  log : ∀ key, LogIn s.table (s.logs key)
  apart : ∀ {key key' fd}, s.logs key = some fd → s.logs key' = some fd → key = key'

variable {table : Table File} {s : Init} {job : JobId} {x : Start} {parent : Parent} {pipes : Pipes}
  {f : Forked}

theorem Orderly.start {view : Table File} (h : Orderly view s) (hok : InitEnabled s (.start job x))
    (hrun : x.run s.table (s.logs (job, x.process)) = some (parent, pipes, f)) :
    StartLeaves ⟨s.table, x.console, s.logs (job, x.process)⟩ parent pipes f :=
  startProcess_leaves (h.log _) hok hrun

theorem Orderly.step {view : Table File} {input : InitInput} (h : Orderly view s)
    (hok : InitEnabled s input) : Sat (initStep s input) (Orderly view) fun _ => True := by
  cases input with
  | start job x =>
    rw [initStep]
    cases hrun : x.run s.table (s.logs (job, x.process)) with
    | none => trivial
    | some r =>
      obtain ⟨parent, pipes, f⟩ := r
      have hleaves := h.start hok hrun
      -- the other logs are where they were
      have hkept : ∀ key fd, key ≠ (job, x.process) → s.logs key = some fd →
          parent.table.get fd = s.table.get fd := by
        intro key fd hkey hfd
        obtain ⟨e, hget, -⟩ := h.log key fd hfd
        exact hleaves.others fd (fun hold => hkey (h.apart hfd hold)) (by rw [hget]; nofun)
      have hnew : ∀ key fd, key ≠ (job, x.process) → s.logs key = some fd →
          parent.log ≠ some fd := by
        intro key fd hkey hfd hlog
        obtain ⟨e, hget, -⟩ := h.log key fd hfd
        rcases hleaves.logNew fd hlog with hold | hfree
        · exact hkey (h.apart hfd hold)
        · cases hget.symm.trans hfree
      refine ⟨hleaves.exec.trans h.exec, fun key => ?_, fun {key key' fd} hfd hfd' => ?_⟩
      · by_cases hkey : key = (job, x.process)
        · subst hkey
          show LogIn parent.table (Function.update s.logs _ parent.log _)
          rw [Function.update_self]
          exact hleaves.log
        · show LogIn parent.table (Function.update s.logs _ parent.log key)
          rw [Function.update_of_ne hkey]
          intro fd hfd
          rw [hkept key fd hkey hfd]
          exact h.log key fd hfd
      · dsimp only at hfd hfd'
        by_cases hkey : key = (job, x.process) <;> by_cases hkey' : key' = (job, x.process)
        · exact hkey.trans hkey'.symm
        · subst hkey
          rw [Function.update_self] at hfd
          rw [Function.update_of_ne hkey'] at hfd'
          exact absurd hfd (hnew key' fd hkey' hfd')
        · subst hkey'
          rw [Function.update_self] at hfd'
          rw [Function.update_of_ne hkey] at hfd
          exact absurd hfd' (hnew key fd hkey hfd)
        · rw [Function.update_of_ne hkey] at hfd
          rw [Function.update_of_ne hkey'] at hfd'
          exact h.apart hfd hfd'
  | other table logs =>
    obtain ⟨hexec, hlogs⟩ := hok
    refine ⟨hexec.trans h.exec, fun key fd hfd => ?_, fun {key key' fd} hfd hfd' => ?_⟩
    · obtain ⟨hold, hget⟩ := hlogs key fd hfd
      show ∃ e, table.get fd = some e ∧ _
      rw [hget]
      exact h.log key fd hold
    · exact h.apart (hlogs key fd hfd).1 (hlogs key' fd hfd').1

theorem reached_orderly (h : Reach (atBoot table) InitEnabled initStep s) :
    Orderly table.exec s := by
  refine h.invariant ?_ fun s i hs hok => hs.step hok
  rintro _ rfl
  exact ⟨rfl, fun _ => nofun, nofun⟩

/-- Whatever init has started, it leaves to a program what it left at boot. -/
theorem reached_exec (h : Reach (atBoot table) InitEnabled initStep s) :
    s.table.exec = table.exec :=
  (reached_orderly h).exec

/-! ## What is executed -/

/-- The child has what it is to have. -/
theorem StartLeaves.given {p : Parent} (h : StartLeaves p parent pipes f) :
    ∃ base own, base.exec = p.table.exec ∧ Holds base f.child own ∧ Given (x.args pipes f) own := by
  obtain ⟨base, own, hexec, hh, hreader, hwriter, hscript, hready, hmaster, hothers⟩ := h.child
  refine ⟨base, own, hexec, hh, hreader, hwriter, hscript, hready, ?_, hothers⟩
  show own .ptyMaster = if f.parent.console = .log then _ else _
  rw [h.console]
  exact hmaster

theorem named_readyEnv {a : Args} {upstartJob upstartInstance : List Char}
    (h : Named a.env upstartJob upstartInstance) (ready : Option Nat) :
    Named (readyEnv a ready) upstartJob upstartInstance := by
  cases ready with
  | none => exact h
  | some n =>
    exact h.set a.getenv "READY_FD".toList (toList_entry (by decide) (toString n)) (by decide)
      (by decide) (by decide)

theorem openPipes_isSome (script ready : Bool) (t : Table File) :
    (openPipes script ready t).scriptFd.isSome = script ∧
      (openPipes script ready t).readyfd.isSome = ready := by
  cases script <;> cases ready <;> exact ⟨rfl, rfl⟩

/-- The process is given the pipes that it needs. -/
theorem Start.pipes_isSome {log : Option Nat} (h : x.run table log = some (parent, pipes, f)) :
    pipes.scriptFd.isSome = x.script ∧ pipes.readyfd.isSome = x.ready := by
  unfold Start.run startProcess at h
  obtain ⟨f', -, heq⟩ := Option.map_eq_some_iff.mp h
  cases heq
  exact openPipes_isSome ..

theorem Orderly.executed {view : Table File} {k : Kernel} (hs : Orderly view s) (uid gid : Nat)
    {session : Option String} {owner : Job} (hstd : ∀ n < 3, view.get n ≠ none)
    (hok : InitEnabled s (.start job x))
    (henv : jobProcessEnvironment x.getenv session owner x.process = some x.env)
    (hrun : x.run s.table (s.logs (job, x.process)) = some (parent, pipes, f))
    (hm : Managed k (x.args pipes f)) :
    Sat (childSetUp k (x.args pipes f) (.forked (x.args pipes f) f.child uid gid))
      (fun r => Executed k (x.args pipes f) view owner.cls.name.toList owner.name.toList
        (.forked (x.args pipes f) f.child uid gid) r.2)
      (Told k (x.args pipes f)) := by
  obtain ⟨base, own, hexec, hh, hg⟩ := (hs.start hok hrun).given (x := x)
  have hbase : base.exec = view := hexec.trans hs.exec
  have hopen : ∀ n < 3, base.get n ≠ none := by
    intro n hn hfree
    refine hstd n hn ?_
    rw [← hbase, Table.get_exec, hfree]
    rfl
  obtain ⟨hr, hjob, hinst⟩ := jobProcessEnvironment_names henv
  rw [← hbase]
  exact childSetUp_sat hh hg hopen hm (named_readyEnv ⟨hr, hjob, hinst⟩)

/-- Whatever init has started before, with whatever failures: a child of it executes its program,
which finds its standard descriptors, its script and its readiness pipe at the numbers that its
command line and its environment name, and of the others those that init had at boot; with the
settings of its class and in its control groups.  Or the first of its calls that failed is told to
init. -/
theorem reached_executed {k : Kernel} (uid gid : Nat) {session : Option String} {owner : Job}
    (h : Reach (atBoot table) InitEnabled initStep s)
    (hstd : ∀ n < 3, table.exec.get n ≠ none) (hok : InitEnabled s (.start job x))
    (henv : jobProcessEnvironment x.getenv session owner x.process = some x.env)
    (hrun : x.run s.table (s.logs (job, x.process)) = some (parent, pipes, f))
    (hm : Managed k (x.args pipes f)) :
    pipes.scriptFd.isSome = x.script ∧ pipes.readyfd.isSome = x.ready ∧
      Sat (childSetUp k (x.args pipes f) (.forked (x.args pipes f) f.child uid gid))
        (fun r => Executed k (x.args pipes f) table.exec owner.cls.name.toList owner.name.toList
          (.forked (x.args pipes f) f.child uid gid) r.2)
        (Told k (x.args pipes f)) := by
  obtain ⟨hscript, hready⟩ := Start.pipes_isSome hrun
  exact ⟨hscript, hready, (reached_orderly h).executed uid gid hstd hok henv hrun hm⟩

/-- Init at boot, with nothing but its standard descriptors. -/
def bootTable : Table File where
  get := fun n => if n < 3 then some ⟨.inherited n, false⟩ else none
  finite := ⟨3, fun n hn => if_neg (by omega)⟩

theorem bootTable_standard (n : Nat) (hn : n < 3) : bootTable.exec.get n ≠ none := by
  have hget : bootTable.get n = some ⟨.inherited n, false⟩ := if_pos hn
  rw [Table.get_exec, hget]
  nofun

/-- A script of two lines, that tells when it is ready, and whose output is logged. -/
def scriptStart : Start where
  cls := { jobClassNew plainSetup with
    process := fun p => if p = .main then some ⟨true, some "echo\nexec daemon\n"⟩ else none
    expect := .readyfd }
  console := .log
  process := .main
  command := ⟨true, "echo\nexec daemon\n"⟩
  env := ["UPSTART_JOB=script", "UPSTART_INSTANCE="]
  userMode := false
  disableJobLogging := false
  strSplit := fun command => [command]
  getenv := fun _ => none
  attempts := [⟨true, true, true, true⟩]

theorem scriptStart_forks (s : Init) : InitEnabled s (.start 1 scriptStart) :=
  fun _ => show ∀ attempt ∈ scriptStart.attempts, attempt.forked = true by decide

/-- A kernel that lets a call fail where it is asked to. -/
def failingKernel (failing : Call → Option Nat) : Kernel where
  fails := fun _ => failing
  getpwnam := fun _ _ => none
  getgrnam := fun _ _ => none
  userName := fun _ _ => "root"
  apparmorAvailable := false
  supportEnabled := false
  managerAvailable := false

/-- Init, after it has started the script, whose log it has then. -/
theorem reached_exec_script :
    ∃ s, initStep ⟨bootTable, fun _ => none⟩ (.start 1 scriptStart) = .ok s ∧
      (s.logs (1, .main)).isSome = true ∧ s.table.exec = bootTable.exec := by
  obtain ⟨s, hs, hlog⟩ : ∃ s, initStep ⟨bootTable, fun _ => none⟩ (.start 1 scriptStart) = .ok s ∧
      (s.logs (1, .main)).isSome = true := ⟨_, rfl, rfl⟩
  exact ⟨s, hs, hlog, reached_exec (.step (.init rfl) (scriptStart_forks _) hs)⟩

/-- The script is executed, where no call fails. -/
theorem reached_executed_script :
    ∃ parent pipes f child, scriptStart.run bootTable none = some (parent, pipes, f) ∧
      childSetUp (failingKernel fun _ => none) (scriptStart.args pipes f)
        (.forked (scriptStart.args pipes f) f.child 0 0) = .ok ((), child) ∧
      Executed (failingKernel fun _ => none) (scriptStart.args pipes f) bootTable.exec
        "script".toList "".toList (.forked (scriptStart.args pipes f) f.child 0 0) child := by
  have henv : jobProcessEnvironment scriptStart.getenv none
      (jobNew 1 1 { plainClass [.main] with name := "script" } "" none) .main =
      some scriptStart.env := by decide
  obtain ⟨⟨parent, pipes, f⟩, hrun⟩ : ∃ r, scriptStart.run bootTable none = some r := ⟨_, rfl⟩
  obtain ⟨-, -, hsat⟩ := reached_executed (k := failingKernel fun _ => none) 0 0
    (s := ⟨bootTable, fun _ => none⟩) (x := scriptStart) (.init rfl) bootTable_standard
    (scriptStart_forks _) henv hrun fun h => absurd rfl h
  refine ⟨parent, pipes, f, ?_⟩
  cases hend : childSetUp (failingKernel fun _ => none) (scriptStart.args pipes f)
    (.forked (scriptStart.args pipes f) f.child 0 0) with
  | ok r =>
    rw [hend] at hsat
    exact ⟨r.2, hrun, rfl, hsat⟩
  | error e =>
    rw [hend] at hsat
    cases e with
    | aborted child file error =>
      obtain ⟨-, -, hblames⟩ := hsat
      cases hblames with
      | failed calls before asked fails => cases fails
      | noUser asked last before missing => cases asked
      | noGroup asked last before missing => cases asked
      | badProfile asked before expanded => cases asked
      | badGroup asked before expanded => cases asked
    | hung child error => cases (show false = true from hsat.1)
    | crashed child => cases (show ProcessType.main = .security from hsat.1)

end Startup.Spawn
