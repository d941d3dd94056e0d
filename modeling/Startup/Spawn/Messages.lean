import Startup.ParseJob.Composition
import Startup.Spawn.Runs

/-!
# What init makes of the error of a child (`init/job_process.c`)

`job_process_error_handler` raises the error of the child again, with a message.  It asserts that
it knows the resource of a limit; not every resource of the kernel is one that it knows.

* `limits_written`: a limit of a class is for a resource that a `limit` stanza names.
* `reached_told`: what a child tells is raised again, and the message has the name of the resource
  as it is in the job file.
-/

namespace Startup.Spawn

open Lib Lib.Descriptors ParseJob

/-! ## Messages -/

/-- The name of a resource, in the order of their numbers. -/
def rlimitName (resource : Nat) : Option String :=
  match resource with
  | 0 => some "cpu"
  | 1 => some "fsize"
  | 2 => some "data"
  | 3 => some "stack"
  | 4 => some "core"
  | 5 => some "rss"
  | 6 => some "nproc"
  | 7 => some "nofile"
  | 8 => some "memlock"
  | 9 => some "as"
  | 10 => some "locks"
  | 11 => some "sigpending"
  | 12 => some "msgqueue"
  | 13 => some "nice"
  | 14 => some "rtprio"
  | _ => none

/-- The message of an error; there is none where an assertion fails. -/
def errorMessage (strerror : ErrorNumber → String) (e : WireError) : Option String :=
  match e.type with
  | .dup => some ("unable to move script fd: " ++ strerror e.errnum)
  | .console => some ("unable to open console: " ++ strerror e.errnum)
  | .rlimit => (rlimitName e.arg).map fun res =>
      "unable to set \"" ++ res ++ "\" resource limit: " ++ strerror e.errnum
  | .priority => some ("unable to set priority: " ++ strerror e.errnum)
  | .oomAdj => some ("unable to set oom adjustment: " ++ strerror e.errnum)
  | .chroot => some ("unable to change root directory: " ++ strerror e.errnum)
  | .chdir => some ("unable to change working directory: " ++ strerror e.errnum)
  | .ptrace => some ("unable to set trace: " ++ strerror e.errnum)
  | .exec => some ("unable to execute: " ++ strerror e.errnum)
  | .getpwnam => some ("unable to getpwnam: " ++ strerror e.errnum)
  | .getgrnam => some ("unable to getgrnam: " ++ strerror e.errnum)
  | .getpwuid => some ("unable to getpwuid: " ++ strerror e.errnum)
  | .getgrgid => some ("unable to getgrgid: " ++ strerror e.errnum)
  | .badSetuid => some "unable to find setuid user"
  | .badSetgid => some "unable to find setgid group"
  | .setuid => some ("unable to setuid: " ++ strerror e.errnum)
  | .setgid => some ("unable to setgid: " ++ strerror e.errnum)
  | .chown => some ("unable to chown: " ++ strerror e.errnum)
  | .unlockpt => some ("unable to unlockpt: " ++ strerror e.errnum)
  | .grantpt => some ("unable to granpt: " ++ strerror e.errnum)
  | .ptsname => some ("unable to get ptsname: " ++ strerror e.errnum)
  | .openptSlave => some ("unable to open pty slave: " ++ strerror e.errnum)
  | .signal => some ("unable to modify signal handler: " ++ strerror e.errnum)
  | .alloc => some ("unable to allocate memory: " ++ strerror e.errnum)
  | .initgroups => some ("unable to initgroups: " ++ strerror e.errnum)
  | .security => some ("unable to switch security profile: " ++ strerror e.errnum)
  | .cgroupMgrConnect => some ("unable to connect to CGManager: " ++ strerror e.errnum)
  | .cgroupSetup => some ("unable to setup cgroup: " ++ strerror e.errnum)
  | .cgroupEnter => some ("unable to enter cgroup: " ++ strerror e.errnum)
  | .cgroupClear => some ("unable to mark cgroups for removal: " ++ strerror e.errnum)

/-- `JobProcessError`. -/
structure JobProcessError extends WireError where
  message : String

/-- `job_process_error_handler`, for as many bytes as an error has. -/
def jobProcessErrorHandler (strerror : ErrorNumber → String) (e : WireError) :
    Option JobProcessError :=
  (errorMessage strerror e).map fun message => { e with message := message }

/-! ## Limits -/

/-- The message has the name that the stanza has. -/
theorem rlimitName_limitResource {arg : String} {resource : Fin rlimitNlimits}
    (h : limitResource arg = some resource) : rlimitName resource = some arg := by
  unfold limitResource at h
  iterate 14
    rcases ite_eq_iff.mp h with ⟨harg, heq⟩ | ⟨-, h⟩
    · cases heq
      rw [harg]
      rfl
  cases h

/-- A stanza for the limit of a resource. -/
def IsLimit (line : Line) (resource : Fin rlimitNlimits) (arg : String) : Prop :=
  line.stanza = "limit" ∧ line.words.head?.map Word.text = some arg ∧
    limitResource arg = some resource

theorem isLimit_of_setting {x : Setup} {line : Line} {resource : Fin rlimitNlimits}
    (h : line.setting x = some (.limit resource)) : ∃ arg, IsLimit line resource arg := by
  unfold Line.setting at h
  split at h
  case h_23 hstanza =>
    obtain ⟨r, hr, heq⟩ := Option.map_eq_some_iff.mp h
    cases heq
    obtain ⟨arg, harg, hresource⟩ := Option.bind_eq_some_iff.mp hr
    exact ⟨arg.text, hstanza, by rw [harg]; rfl, hresource⟩
  all_goals first
    | cases h
    | (dsimp only at h; split at h <;> cases h)

/-- A limit of a class is one of the class that has been updated, or a stanza is for it. -/
theorem parseFile_limits {x : Setup} {file : List Line} {c : ClassSettings}
    {resource : Fin rlimitNlimits} (herror : (parseFile x c file).error = none)
    (hlimit : (parseFile x c file).cls.limits resource ≠ none) :
    c.limits resource ≠ none ∨ ∃ line ∈ file, ∃ arg, IsLimit line resource arg := by
  induction file generalizing c with
  | nil => exact .inl hlimit
  | cons line file ih =>
    rw [parseFile] at herror hlimit
    cases parseStanza_acts x line with
    | refuses hrefuses =>
      have hline := hrefuses c
      cases houtcome : parseStanza x c line with
      | mk e c' =>
        rw [houtcome] at hline herror
        cases e with
        | none => exact absurd rfl hline
        | some e => cases herror
    | does e hs he hdoes =>
      rw [hdoes] at herror hlimit
      rcases ih herror hlimit with hold | ⟨l, hl, harg⟩
      · by_cases hset : line.setting x = some (.limit resource)
        · exact .inr ⟨line, List.mem_cons_self, isLimit_of_setting hset⟩
        · have hsame := Effect.get_apply_of_ne (hs ▸ hset) c
          exact .inl fun hnone => hold (hsame.trans hnone)
      · exact .inr ⟨l, List.mem_cons_of_mem _ hl, harg⟩

/-- A class that a job file and an override make has limits for what their stanzas name. -/
theorem limits_written {x : Setup} {base override : List Line} {c₀ c : ClassSettings}
    (hbase : ParseJob.parseJob x none base = some c₀)
    (h : ParseJob.parseJob x (some c₀) override = some c)
    {resource : Fin rlimitNlimits} (hlimit : c.limits resource ≠ none) :
    ∃ line ∈ base ++ override, ∃ arg, IsLimit line resource arg := by
  have hfile : ∀ {update : Option ClassSettings} {file : List Line} {c : ClassSettings},
      ParseJob.parseJob x update file = some c →
      parseFile x (update.getD (jobClassNew x)) file = ⟨none, c⟩ := by
    intro update file c h
    unfold ParseJob.parseJob at h
    split at h
    · rename_i heq
      cases h
      exact heq
    · cases h
  have hbase' := hfile hbase
  have hoverride := hfile h
  rw [Option.getD_some] at hoverride
  have hor := parseFile_limits (by rw [hoverride]) (by rw [hoverride]; exact hlimit)
  rcases hor with hold | ⟨line, hline, harg⟩
  · have hor₀ := parseFile_limits (by rw [hbase']) (by rw [hbase']; exact hold)
    rcases hor₀ with hnew | ⟨line, hline, harg⟩
    · exact absurd rfl hnew
    · exact ⟨line, List.mem_append_left _ hline, harg⟩
  · exact ⟨line, List.mem_append_right _ hline, harg⟩

/-! ## What is told -/

variable {k : Kernel} {a : Args} {s : Child} {e : WireError}

/-- The error for a limit is for a limit of the class. -/
theorem Blames.limit (h : Blames k a s e) (htype : e.type = .rlimit) :
    ∃ resource : Fin rlimitNlimits, a.cls.limits resource ≠ none ∧ e.arg = resource := by
  cases h with
  | failed calls before asked fails =>
    rename_i done c n
    cases c <;> cases htype
    rename_i resource limit
    exact ⟨resource, by rw [show a.cls.limits resource = some limit from asked]; nofun, rfl⟩
  | noUser last before missing => cases htype
  | noGroup last before missing => cases htype
  | badProfile before expanded => cases htype
  | badGroup before expanded => cases htype

/-- An error is raised again, unless it is for a limit without a name. -/
theorem jobProcessErrorHandler_eq (strerror : ErrorNumber → String)
    (h : e.type = .rlimit → rlimitName e.arg ≠ none) :
    ∃ r, jobProcessErrorHandler strerror e = some r ∧ r.toWireError = e ∧
      errorMessage strerror e = some r.message := by
  have hsome : (errorMessage strerror e).isSome := by
    unfold errorMessage
    split
    case h_3 htype =>
      rw [Option.isSome_map]
      exact Option.isSome_iff_ne_none.mpr (h htype)
    all_goals rfl
  obtain ⟨message, hmessage⟩ := Option.isSome_iff_exists.mp hsome
  refine ⟨{ e with message := message }, ?_, rfl, hmessage⟩
  rw [jobProcessErrorHandler, hmessage]
  rfl

/-- The error that a child tells comes to init, is that of the first call that failed, and is
raised again without an assertion; for a limit with the name that the job file has for it. -/
theorem reached_told {table : Table File} {s : Init} {job : JobId} {x : Start} {parent : Parent}
    {pipes : Pipes} {f : Forked} {uid gid : Nat} {session : Option String} {owner : Job}
    {setup : Setup} {base override : List Line} {c₀ : ClassSettings} {child : Child} {file : File}
    (h : Reach (atBoot table) InitEnabled initStep s) (hstd : ∀ n < 3, table.exec.get n ≠ none)
    (hok : InitEnabled s (.start job x))
    (henv : jobProcessEnvironment x.getenv session owner x.process = some x.env)
    (hbase : ParseJob.parseJob setup none base = some c₀)
    (hcls : ParseJob.parseJob setup (some c₀) override = some x.cls)
    (hrun : x.run s.table (s.logs (job, x.process)) = some (parent, pipes, f))
    (hm : Managed k (x.args pipes f))
    (hend : childSetUp k (x.args pipes f) (.forked (x.args pipes f) f.child uid gid) =
      .error (.aborted child file e)) (strerror : ErrorNumber → String) :
    file = .errorWriter ∧ Blames k (x.args pipes f) child e ∧
      ∃ r, jobProcessErrorHandler strerror e = some r ∧ r.toWireError = e ∧
        (e.type = .rlimit → ∃ line ∈ base ++ override, line.stanza = "limit" ∧
          ∃ arg, line.words.head?.map Word.text = some arg ∧
            r.message =
              "unable to set \"" ++ arg ++ "\" resource limit: " ++ strerror e.errnum) := by
  have hsat := (reached_orderly h).executed uid gid hstd hok henv hrun hm
  rw [hend] at hsat
  obtain ⟨hfile, -, hblames⟩ := hsat
  have hnamed : e.type = .rlimit → ∃ line ∈ base ++ override, ∃ arg, line.stanza = "limit" ∧
      line.words.head?.map Word.text = some arg ∧ rlimitName e.arg = some arg := by
    intro htype
    obtain ⟨resource, hlimit, harg⟩ := hblames.limit htype
    obtain ⟨line, hline, arg, hstanza, hword, hresource⟩ := limits_written hbase hcls hlimit
    exact ⟨line, hline, arg, hstanza, hword, harg ▸ rlimitName_limitResource hresource⟩
  obtain ⟨r, hr, hsame, hmessage⟩ := jobProcessErrorHandler_eq strerror fun htype => by
    obtain ⟨-, -, arg, -, -, hname⟩ := hnamed htype
    rw [hname]
    nofun
  refine ⟨hfile, hblames, r, hr, hsame, fun htype => ?_⟩
  obtain ⟨line, hline, arg, hstanza, hword, hname⟩ := hnamed htype
  refine ⟨line, hline, hstanza, arg, hword, ?_⟩
  rw [errorMessage, htype] at hmessage
  dsimp only at hmessage
  rw [hname, Option.map_some] at hmessage
  exact (Option.some.inj hmessage).symm

/-- A job file with a limit, and a command that is executed as it is. -/
def limitedJob : List Line := [
  { stanza := "limit", words := [⟨"nofile", "nofile"⟩, ⟨"10", "10"⟩, ⟨"20", "20"⟩] },
  { stanza := "exec", words := [⟨"daemon", "daemon"⟩] }]

def limitedStart (cls : ClassSettings) : Start :=
  { scriptStart with
    cls := cls
    command := ⟨false, "daemon"⟩
    env := ["UPSTART_JOB=limited", "UPSTART_INSTANCE="] }

/-- A kernel that does not find the program. -/
def programless : Kernel := failingKernel fun
  | .exec _ => some enoent
  | _ => none

/-- A program that is not there. -/
theorem reached_told_exec :
    ∃ cls parent pipes f child file e r,
      ParseJob.parseJob plainSetup none limitedJob = some cls ∧
      (limitedStart cls).run bootTable none = some (parent, pipes, f) ∧
      childSetUp programless ((limitedStart cls).args pipes f)
        (.forked ((limitedStart cls).args pipes f) f.child 0 0) = .error (.aborted child file e) ∧
      file = .errorWriter ∧ jobProcessErrorHandler (fun _ => "not found") e = some r ∧
      r.message = "unable to execute: not found" := by
  obtain ⟨cls, hcls, hdebug, hsetuid, hsetgid, hprofile, hgroups⟩ : ∃ cls,
      ParseJob.parseJob plainSetup none limitedJob = some cls ∧ cls.debug = false ∧
        cls.setuid = none ∧ cls.setgid = none ∧ cls.apparmorSwitch = none ∧ cls.cgroups = [] :=
    ⟨_, rfl, rfl, rfl, rfl, rfl, rfl⟩
  obtain ⟨⟨parent, pipes, f⟩, hrun⟩ :
      ∃ r, (limitedStart cls).run bootTable none = some r := ⟨_, rfl⟩
  have hok : InitEnabled ⟨bootTable, fun _ => none⟩ (.start 1 (limitedStart cls)) :=
    fun _ => show ∀ attempt ∈ scriptStart.attempts, attempt.forked = true by decide
  have henv : jobProcessEnvironment scriptStart.getenv none
      (jobNew 1 1 { plainClass [.main] with name := "limited" } "" none) .main =
      some ["UPSTART_JOB=limited", "UPSTART_INSTANCE="] := by decide
  have hsame : ParseJob.parseJob plainSetup (some cls) [] = some (limitedStart cls).cls := rfl
  have hm : Managed programless ((limitedStart cls).args pipes f) := fun h => absurd hgroups h
  have hsat := (reached_orderly (.init rfl)).executed (x := limitedStart cls) 0 0
    bootTable_standard hok henv hrun hm
  refine ⟨cls, parent, pipes, f, ?_⟩
  cases hend : childSetUp programless ((limitedStart cls).args pipes f)
    (.forked ((limitedStart cls).args pipes f) f.child 0 0) with
  | ok r =>
    rw [hend] at hsat
    obtain ⟨done, -, -, hexec⟩ := hsat.passed.of_getLast hsat.last
    cases hexec enoent rfl
  | error e =>
    rw [hend] at hsat
    cases e with
    | aborted child file e =>
      obtain ⟨hfile, hblames, r, hr, -, -⟩ := reached_told (.init rfl) bootTable_standard hok henv
        hcls hsame hrun hm hend fun _ => "not found"
      refine ⟨child, file, e, r, hcls, hrun, rfl, hfile, hr, ?_⟩
      cases hblames with
      | failed calls before asked fails =>
        rename_i done c n
        cases c <;> cases fails
        cases hr
        rfl
      | noUser asked last before missing => cases hsetuid.symm.trans asked
      | noGroup asked last before missing => cases hsetgid.symm.trans asked
      | badProfile asked before expanded => cases hprofile.symm.trans asked
      | badGroup asked before expanded =>
        rw [show ((limitedStart cls).args pipes f).cls.cgroups = [] from hgroups] at asked
        cases asked
    | hung child error =>
      have hdebug' : cls.debug = true := hsat.1
      cases hdebug.symm.trans hdebug'
    | crashed child => exact absurd hgroups hsat.2

end Startup.Spawn
