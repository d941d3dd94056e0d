import Startup.Event.OnTree
import Startup.Lib.Numeral
import Startup.State.Classes

/-!
# Stanzas (`init/parse_job.c`, `init/cgroup.c`)

`parse_job` and its handlers.  The tokeniser is libnih's: the model starts where it has
cut a file into stanzas, each with its tokens, and `Setup` has what else the handlers take
from outside.  A handler changes the class in place, also where it then raises an error,
so an `Outcome` has both.  Memory does not run out.

* `ClassSettings`: what the stanzas of a file set.
* `stanza…`: the handlers, in the order of the source.
* `cgroupAdd`: the lists of the `cgroup` stanza.
* `parseFile`, `parseJob`: the stanzas one after the other.
-/

namespace Startup.ParseJob

open Lib Numeral

/-! ## What is read -/

/-- A token, as it stands (`nih_config_next_token` without dequoting) and without its quotes
(`nih_config_next_arg`). -/
structure Word where
  raw : String
  text : String
  deriving DecidableEq, Repr

/-- A stanza: its name and the tokens behind it up to a comment or the end of the line; the
block that starts on the next line, if it is terminated; and the tokens of the condition
behind `on`, over the lines that belong to it.  `manual` and `debug` read nothing behind
their name: what follows on the line is a stanza of its own. -/
structure Line where
  stanza : String
  words : List Word
  block : Option String := none
  condition : List OnToken := []
  deriving DecidableEq

/-- The errors that the handlers raise.  The first four are the tokeniser's; `overflow` is
none: an `int` has overflown, and what happens then is left open by the language. -/
inductive StanzaError where
  | expectedToken
  | unexpectedToken
  | unterminatedBlock
  | unknownStanza
  | illegalInterval
  | illegalExit
  | illegalSignal
  | illegalUmask
  | illegalNice
  | illegalOom
  | illegalOomScore
  | illegalLimit
  | on (e : OnError)
  | overflow
  deriving DecidableEq, Repr

/-- What the handlers take from outside. -/
structure Setup where
  /-- `nih_signal_from_name`, negative for an unknown name -/
  signalFromName : String → Int
  /-- `nih_config_parse_command` -/
  parseCommand : List Word → String
  /-- `debug_stanza_enabled` -/
  debugStanzaEnabled : Bool
  /-- `ENABLE_CGROUPS` -/
  enableCgroups : Bool
  /-- the memory of a `struct rlimit` that has just been allocated -/
  fresh : Rlimit
  /-- the console of a new class -/
  defaultConsole : ConsoleType
  /-- the file creation mask of a new class -/
  defaultUmask : Int

/-- A setup without signal names, with a command as its tokens stand. -/
def plainSetup : Setup where
  signalFromName := fun _ => -1
  parseCommand := fun words => " ".intercalate (words.map Word.raw)
  debugStanzaEnabled := false
  enableCgroups := true
  fresh := ⟨0, 0⟩
  defaultConsole := .log
  defaultUmask := 0o022

/-! ## What is set -/

/-- `Process`, while it is being parsed. -/
structure ProcessSetting where
  script : Bool
  command : Option String
  deriving DecidableEq, Repr

/-- The fields of `JobClass` that stanzas set.  A console of `none` is -1. -/
structure ClassSettings where
  instancePattern : Option String
  description : Option String
  author : Option String
  version : Option String
  env : List String
  exports : List String
  startOn : Option EventOperator
  stopOn : Option EventOperator
  emits : List String
  process : ProcessType → Option ProcessSetting
  expect : ExpectType
  task : Bool
  killTimeout : Int
  killSignal : Int
  reloadSignal : Int
  respawn : Bool
  respawnLimit : Int
  respawnInterval : Int
  normalexit : List Int
  console : Option ConsoleType
  umask : Int
  nice : Int
  oomScoreAdj : Int
  limits : Fin rlimitNlimits → Option Rlimit
  chroot : Option String
  chdir : Option String
  setuid : Option String
  setgid : Option String
  debug : Bool
  usage : Option String
  apparmorSwitch : Option String
  cgroups : List CGroup

/-- `job_class_new`. -/
def jobClassNew (x : Setup) : ClassSettings where
  instancePattern := some ""
  description := none
  author := none
  version := none
  env := []
  exports := []
  startOn := none
  stopOn := none
  emits := []
  process := fun _ => none
  expect := .none
  task := false
  killTimeout := 5
  killSignal := 15
  reloadSignal := 1
  respawn := false
  respawnLimit := 10
  respawnInterval := 5
  normalexit := []
  console := some x.defaultConsole
  umask := x.defaultUmask
  nice := -21
  oomScoreAdj := 0
  limits := fun _ => none
  chroot := none
  chdir := none
  setuid := none
  setgid := none
  debug := false
  usage := none
  apparmorSwitch := none
  cgroups := []

/-- The error that a handler raises, if any, and the class as it leaves it. -/
structure Outcome where
  error : Option StanzaError
  cls : ClassSettings

/-- A handler fails. -/
def raised (e : StanzaError) (c : ClassSettings) : Outcome := ⟨some e, c⟩

/-- The end of most handlers, `nih_config_skip_comment`: there are no more tokens. -/
def skipComment (c : ClassSettings) : List Word → Outcome
  | [] => ⟨none, c⟩
  | _ :: _ => raised .unexpectedToken c

/-! ## Processes -/

/-- `parse_exec`, for a process that is there. -/
def parseExec (x : Setup) (c : ClassSettings) (process : ProcessType) (words : List Word) :
    Outcome :=
  if words = [] then raised .expectedToken c
  else
    ⟨none, { c with
      process := Function.update c.process process (some ⟨false, some (x.parseCommand words)⟩) }⟩

/-- `parse_script`, for a process that is there. -/
def parseScript (c : ClassSettings) (process : ProcessType) (words : List Word)
    (block : Option String) : Outcome :=
  if words ≠ [] then raised .unexpectedToken c
  else
    let c := { c with process := Function.update c.process process (some ⟨true, block⟩) }
    if block = none then raised .unterminatedBlock c else ⟨none, c⟩

/-- A process is allocated where there is none (`process_new`). -/
def allocateProcess (c : ClassSettings) (process : ProcessType) : ClassSettings :=
  match c.process process with
  | some _ => c
  | none => { c with process := Function.update c.process process (some ⟨false, none⟩) }

/-- `parse_process`. -/
def parseProcess (x : Setup) (c : ClassSettings) (process : ProcessType) (line : Line) :
    Outcome :=
  let c := allocateProcess c process
  match line.words with
  | [] => raised .expectedToken c
  | arg :: rest =>
    if arg.raw = "exec" then parseExec x c process rest
    else if arg.raw = "script" then parseScript c process rest line.block
    else raised .unknownStanza c

/-! ## Control groups -/

/-- The search for a setting whose value is then replaced. -/
def replaceSetting (key : String) (value : Option String) :
    List CGroupSetting → Option (List CGroupSetting)
  | [] => none
  | setting :: settings =>
    if setting.key = key then some ({ setting with value := value } :: settings)
    else (replaceSetting key value settings).map (setting :: ·)

/-- The loop of `cgroup_add` over the names of a controller: the names, `found_cgroup_name`,
and whether the function has returned. -/
def addToNames (name : String) (key value : Option String) :
    Bool → List CGroupName → List CGroupName × Bool × Bool
  | found, [] => ([], found, false)
  | found, cgname :: names =>
    if cgname.name = name then
      match key with
      | none =>
        let r := addToNames name key value true names
        (cgname :: r.1, r.2)
      | some k =>
        match replaceSetting k value cgname.settings with
        | some settings => ({ cgname with settings := settings } :: names, true, true)
        | none =>
          let r := addToNames name key value true names
          ({ cgname with settings := cgname.settings ++ [⟨k, value⟩] } :: r.1, r.2)
    else
      let r := addToNames name key value found names
      (cgname :: r.1, r.2)

/-- `cgroup_name_new`, with the setting if there is one. -/
def newCgroupName (name : String) (key value : Option String) : CGroupName where
  name := name
  expanded := none
  settings := key.toList.map fun k => ⟨k, value⟩

/-- The loop of `cgroup_add` over the controllers, from `found_cgroup` and
`found_cgroup_name` on. -/
def addToCgroups (controller name : String) (key value : Option String) :
    Bool → Bool → List CGroup → List CGroup
  | found, _, [] => if found then [] else [⟨controller, [newCgroupName name key value]⟩]
  | found, foundName, cgroup :: cgroups =>
    if cgroup.controller = controller then
      match addToNames name key value foundName cgroup.names with
      | (names, _, true) => { cgroup with names := names } :: cgroups
      | (names, true, false) =>
        { cgroup with names := names } :: addToCgroups controller name key value true true cgroups
      | (names, false, false) =>
        { cgroup with names := names ++ [newCgroupName name key value] } :: cgroups
    else cgroup :: addToCgroups controller name key value found foundName cgroups

/-- `cgroup_add`. -/
def cgroupAdd (cgroups : List CGroup) (controller : String) (name key value : Option String) :
    List CGroup :=
  addToCgroups controller (name.getD "$UPSTART_CGROUP") key value false false cgroups

/-- `parse_cgroup`. -/
def parseCgroup (x : Setup) (c : ClassSettings) (words : List Word) : Outcome :=
  let add (controller : Word) (name key value : Option Word) (rest : List Word) :=
    if x.enableCgroups then
      skipComment { c with
        cgroups := cgroupAdd c.cgroups controller.text (name.map Word.text)
          (key.map Word.text) (value.map Word.text) } rest
    else skipComment c rest
  match words with
  | [] => raised .expectedToken c
  | [controller] => add controller none none none []
  | [controller, name] => add controller (some name) none none []
  | [controller, key, value] => add controller none (some key) (some value) []
  | controller :: name :: key :: value :: rest => add controller (some name) (some key) value rest

/-! ## Handlers -/

/-- A handler that stores its one argument. -/
def storeArg (set : Option String → ClassSettings) : List Word → Outcome
  | [] => raised .expectedToken (set none)
  | arg :: rest => skipComment (set arg.text) rest

/-- A handler that appends its arguments to an array. -/
def appendArgs (c : ClassSettings) (append : List String → ClassSettings) (words : List Word) :
    Outcome :=
  if words = [] then raised .expectedToken c else ⟨none, append (words.map Word.text)⟩

/-- A handler that stores a condition; the old one is freed first. -/
def storeCondition (c : ClassSettings) (set : Option EventOperator → ClassSettings) (line : Line) :
    Outcome :=
  match line.words with
  | [] => raised .expectedToken c
  | arg :: _ =>
    if arg.raw = "on" then
      match parseTokens line.condition with
      | .ok root => ⟨none, set root⟩
      | .error e => raised (.on e) (set none)
    else raised .unknownStanza c

/-- A signal, by its name or number. -/
def storeSignal (x : Setup) (c : ClassSettings) (set : Int → ClassSettings) : List Word → Outcome
  | [] => raised .expectedToken c
  | arg :: rest =>
    if x.signalFromName arg.text < 0 then
      let status := strtoul 10 arg.text.toList
      if status.erange ∨ status.endptr ≠ [] ∨ intMax < status.value then raised .illegalSignal c
      else skipComment (set status.value) rest
    else skipComment (set (x.signalFromName arg.text)) rest

def stanzaInstance (_ : Setup) (c : ClassSettings) (line : Line) : Outcome :=
  storeArg (fun arg => { c with instancePattern := arg }) line.words

def stanzaDescription (_ : Setup) (c : ClassSettings) (line : Line) : Outcome :=
  storeArg (fun arg => { c with description := arg }) line.words

def stanzaAuthor (_ : Setup) (c : ClassSettings) (line : Line) : Outcome :=
  storeArg (fun arg => { c with author := arg }) line.words

def stanzaVersion (_ : Setup) (c : ClassSettings) (line : Line) : Outcome :=
  storeArg (fun arg => { c with version := arg }) line.words

def stanzaEnv (_ : Setup) (c : ClassSettings) (line : Line) : Outcome :=
  match line.words with
  | [] => raised .expectedToken c
  | arg :: rest => skipComment { c with env := c.env ++ [arg.text] } rest

def stanzaExport (_ : Setup) (c : ClassSettings) (line : Line) : Outcome :=
  appendArgs c (fun args => { c with exports := c.exports ++ args }) line.words

def stanzaStart (_ : Setup) (c : ClassSettings) (line : Line) : Outcome :=
  storeCondition c (fun root => { c with startOn := root }) line

def stanzaStop (_ : Setup) (c : ClassSettings) (line : Line) : Outcome :=
  storeCondition c (fun root => { c with stopOn := root }) line

def stanzaEmits (_ : Setup) (c : ClassSettings) (line : Line) : Outcome :=
  appendArgs c (fun args => { c with emits := c.emits ++ args }) line.words

def stanzaExec (x : Setup) (c : ClassSettings) (line : Line) : Outcome :=
  parseExec x (allocateProcess c .main) .main line.words

def stanzaScript (_ : Setup) (c : ClassSettings) (line : Line) : Outcome :=
  parseScript (allocateProcess c .main) .main line.words line.block

def stanzaPreStart (x : Setup) (c : ClassSettings) (line : Line) : Outcome :=
  parseProcess x c .preStart line

def stanzaPostStart (x : Setup) (c : ClassSettings) (line : Line) : Outcome :=
  parseProcess x c .postStart line

def stanzaPreStop (x : Setup) (c : ClassSettings) (line : Line) : Outcome :=
  parseProcess x c .preStop line

def stanzaPostStop (x : Setup) (c : ClassSettings) (line : Line) : Outcome :=
  parseProcess x c .postStop line

def stanzaExpect (_ : Setup) (c : ClassSettings) (line : Line) : Outcome :=
  match line.words with
  | [] => raised .expectedToken c
  | arg :: rest =>
    if arg.text = "readyfd" then skipComment { c with expect := .readyfd } rest
    else if arg.text = "stop" then skipComment { c with expect := .stop } rest
    else if arg.text = "daemon" then skipComment { c with expect := .daemon } rest
    else if arg.text = "fork" then skipComment { c with expect := .fork } rest
    else if arg.text = "none" then skipComment { c with expect := .none } rest
    else raised .unknownStanza c

def stanzaTask (_ : Setup) (c : ClassSettings) (line : Line) : Outcome :=
  skipComment { c with task := true } line.words

/-- The `timeout` of `stanza_kill`. -/
def stanzaKillTimeout (c : ClassSettings) : List Word → Outcome
  | [] => raised .expectedToken c
  | arg :: rest =>
    let r := strtol 10 arg.text.toList
    let c := { c with killTimeout := r.value }
    if r.erange ∨ r.endptr ≠ [] ∨ c.killTimeout < 0 then raised .illegalInterval c
    else skipComment c rest

def stanzaKill (x : Setup) (c : ClassSettings) (line : Line) : Outcome :=
  match line.words with
  | [] => raised .expectedToken c
  | arg :: rest =>
    if arg.raw = "timeout" then stanzaKillTimeout c rest
    else if arg.raw = "signal" then
      storeSignal x c (fun signal => { c with killSignal := signal }) rest
    else raised .unknownStanza c

def stanzaReload (x : Setup) (c : ClassSettings) (line : Line) : Outcome :=
  match line.words with
  | [] => raised .expectedToken c
  | arg :: rest =>
    if arg.raw = "signal" then
      storeSignal x c (fun signal => { c with reloadSignal := signal }) rest
    else raised .unknownStanza c

def stanzaApparmor (_ : Setup) (c : ClassSettings) (line : Line) : Outcome :=
  match line.words with
  | [] => raised .expectedToken c
  | arg :: rest =>
    if arg.raw = "load" then
      match rest with
      | [] => raised .expectedToken c
      | profile :: rest =>
        skipComment { c with
          process := Function.update c.process .security
            (some ⟨false, some ("/sbin/apparmor_parser" ++ " -r -W " ++ profile.text)⟩) } rest
    else if arg.raw = "switch" then storeArg (fun arg => { c with apparmorSwitch := arg }) rest
    else raised .unknownStanza c

/-- The `limit` of `stanza_respawn`. -/
def stanzaRespawnLimit (c : ClassSettings) : List Word → Outcome
  | [] => raised .expectedToken c
  | limit :: rest =>
    if limit.text ≠ "unlimited" then
      let r := strtol 10 limit.text.toList
      let c := { c with respawnLimit := toInt r.value }
      if r.erange ∨ r.endptr ≠ [] ∨ c.respawnLimit < 0 then raised .illegalLimit c
      else
        match rest with
        | [] => raised .expectedToken c
        | time :: rest =>
          let r := strtol 10 time.text.toList
          let c := { c with respawnInterval := r.value }
          if r.erange ∨ r.endptr ≠ [] ∨ c.respawnInterval < 0 then raised .illegalInterval c
          else skipComment c rest
    else skipComment { c with respawnLimit := 0, respawnInterval := 0 } rest

def stanzaRespawn (_ : Setup) (c : ClassSettings) (line : Line) : Outcome :=
  match line.words with
  | [] => ⟨none, { c with respawn := true }⟩
  | arg :: rest =>
    if arg.raw = "limit" then stanzaRespawnLimit c rest else raised .unknownStanza c

/-- The loop of `stanza_normal` over the exit statuses. -/
def normalExits (x : Setup) (c : ClassSettings) : List Word → Outcome
  | [] => raised .expectedToken c
  | arg :: rest =>
    let add (status : Int) := { c with normalexit := c.normalexit ++ [toInt status] }
    let next (c : ClassSettings) := if rest = [] then ⟨none, c⟩ else normalExits x c rest
    let signum := x.signalFromName arg.text
    if signum < 0 then
      let status := strtoul 10 arg.text.toList
      if status.erange ∨ status.endptr ≠ [] ∨ intMax < status.value then raised .illegalExit c
      else next (add status.value)
    else next (add (signum * 2 ^ 8))

def stanzaNormal (x : Setup) (c : ClassSettings) (line : Line) : Outcome :=
  match line.words with
  | [] => raised .expectedToken c
  | arg :: rest =>
    if arg.raw = "exit" then normalExits x c rest else raised .unknownStanza c

/-- `job_class_console_type`. -/
def jobClassConsoleType (console : String) : Option ConsoleType :=
  if console = "none" then some .none
  else if console = "output" then some .output
  else if console = "owner" then some .owner
  else if console = "log" then some .log
  else none

def stanzaConsole (_ : Setup) (c : ClassSettings) (line : Line) : Outcome :=
  match line.words with
  | [] => raised .expectedToken c
  | arg :: rest =>
    let c := { c with console := jobClassConsoleType arg.text }
    if c.console = none then raised .unknownStanza c else skipComment c rest

def stanzaUmask (_ : Setup) (c : ClassSettings) (line : Line) : Outcome :=
  match line.words with
  | [] => raised .expectedToken c
  | arg :: rest =>
    let r := strtoul 8 arg.text.toList
    let c := { c with umask := toUnsigned r.value }
    -- `~0777` as an `unsigned int`
    if r.erange ∨ r.endptr ≠ [] ∨ c.umask.toNat &&& (2 ^ 32 - 1 - 0o777) ≠ 0 then
      raised .illegalUmask c
    else skipComment c rest

def stanzaNice (_ : Setup) (c : ClassSettings) (line : Line) : Outcome :=
  match line.words with
  | [] => raised .expectedToken c
  | arg :: rest =>
    let r := strtol 10 arg.text.toList
    let c := { c with nice := toInt r.value }
    if r.erange ∨ r.endptr ≠ [] ∨ c.nice < -20 ∨ 19 < c.nice then raised .illegalNice c
    else skipComment c rest

/-- The `score` of `stanza_oom`. -/
def stanzaOomScore (c : ClassSettings) : List Word → Outcome
  | [] => raised .expectedToken c
  | score :: rest =>
    if score.text = "never" then skipComment { c with oomScoreAdj := -1000 } rest
    else
      let r := strtol 10 score.text.toList
      let c := { c with oomScoreAdj := toInt r.value }
      if r.erange ∨ r.endptr ≠ [] ∨ c.oomScoreAdj < -1000 ∨ 1000 < c.oomScoreAdj then
        raised .illegalOomScore c
      else skipComment c rest

def stanzaOom (_ : Setup) (c : ClassSettings) (line : Line) : Outcome :=
  match line.words with
  | [] => raised .expectedToken c
  | arg :: rest =>
    if arg.text = "score" then stanzaOomScore c rest
    else if arg.text = "never" then skipComment { c with oomScoreAdj := -1000 } rest
    else
      let r := strtol 10 arg.text.toList
      let oomAdj := toInt r.value
      if oomAdj * 1000 < -2 ^ 31 ∨ intMax < oomAdj * 1000 then raised .overflow c
      else
        let c := { c with oomScoreAdj := (oomAdj * 1000).tdiv (if oomAdj < 0 then 17 else 15) }
        if r.erange ∨ r.endptr ≠ [] ∨ oomAdj < -17 ∨ 15 < oomAdj then raised .illegalOom c
        else skipComment c rest

instance : NeZero rlimitNlimits := ⟨by decide⟩

/-- The resources of `stanza_limit`, by the numbers of `RLIMIT_AS` and so on. -/
def limitResource (arg : String) : Option (Fin rlimitNlimits) :=
  if arg = "as" then some 9
  else if arg = "core" then some 4
  else if arg = "cpu" then some 0
  else if arg = "data" then some 2
  else if arg = "fsize" then some 1
  else if arg = "memlock" then some 8
  else if arg = "msgqueue" then some 12
  else if arg = "nice" then some 13
  else if arg = "nofile" then some 7
  else if arg = "nproc" then some 6
  else if arg = "rss" then some 5
  else if arg = "rtprio" then some 14
  else if arg = "sigpending" then some 11
  else if arg = "stack" then some 3
  else none

/-- The value of a limit, and whether it is refused. -/
def limitValue (arg : String) : Int × Bool :=
  if arg ≠ "unlimited" then
    let r := strtoul 10 arg.toList
    (r.value, r.erange || r.endptr ≠ [])
  else (2 ^ 64 - 1, false) -- `RLIM_INFINITY`

/-- `class->limits[resource]` is assigned to. -/
def setLimit (c : ClassSettings) (resource : Fin rlimitNlimits) (limit : Rlimit) : ClassSettings :=
  { c with limits := Function.update c.limits resource (some limit) }

/-- The values of `stanza_limit`. -/
def stanzaLimitOf (x : Setup) (c : ClassSettings) (resource : Fin rlimitNlimits)
    (words : List Word) : Outcome :=
  let limit := (c.limits resource).getD x.fresh
  match words with
  | [] => raised .expectedToken (setLimit c resource limit)
  | soft :: rest =>
    let limit := { limit with rlimCur := (limitValue soft.text).1 }
    if (limitValue soft.text).2 then raised .illegalLimit (setLimit c resource limit)
    else
      match rest with
      | [] => raised .expectedToken (setLimit c resource limit)
      | hard :: rest =>
        let limit := { limit with rlimMax := (limitValue hard.text).1 }
        if (limitValue hard.text).2 then raised .illegalLimit (setLimit c resource limit)
        else skipComment (setLimit c resource limit) rest

def stanzaLimit (x : Setup) (c : ClassSettings) (line : Line) : Outcome :=
  match line.words with
  | [] => raised .expectedToken c
  | arg :: rest =>
    match limitResource arg.text with
    | some resource => stanzaLimitOf x c resource rest
    | none => raised .unknownStanza c

def stanzaChroot (_ : Setup) (c : ClassSettings) (line : Line) : Outcome :=
  storeArg (fun arg => { c with chroot := arg }) line.words

def stanzaChdir (_ : Setup) (c : ClassSettings) (line : Line) : Outcome :=
  storeArg (fun arg => { c with chdir := arg }) line.words

def stanzaSetuid (_ : Setup) (c : ClassSettings) (line : Line) : Outcome :=
  storeArg (fun arg => { c with setuid := arg }) line.words

def stanzaSetgid (_ : Setup) (c : ClassSettings) (line : Line) : Outcome :=
  storeArg (fun arg => { c with setgid := arg }) line.words

def stanzaDebug (x : Setup) (c : ClassSettings) (_ : Line) : Outcome :=
  ⟨none, if x.debugStanzaEnabled then { c with debug := true } else c⟩

def stanzaManual (_ : Setup) (c : ClassSettings) (_ : Line) : Outcome :=
  ⟨none, { c with startOn := none }⟩

def stanzaUsage (_ : Setup) (c : ClassSettings) (line : Line) : Outcome :=
  storeArg (fun arg => { c with usage := arg }) line.words

def stanzaCgroup (x : Setup) (c : ClassSettings) (line : Line) : Outcome :=
  parseCgroup x c line.words

/-! ## Files -/

/-- `stanzas`. -/
def stanzas : List (String × (Setup → ClassSettings → Line → Outcome)) := [
  ("instance", stanzaInstance), ("description", stanzaDescription), ("author", stanzaAuthor),
  ("version", stanzaVersion), ("env", stanzaEnv), ("export", stanzaExport),
  ("start", stanzaStart), ("stop", stanzaStop), ("emits", stanzaEmits), ("exec", stanzaExec),
  ("script", stanzaScript), ("pre-start", stanzaPreStart), ("post-start", stanzaPostStart),
  ("pre-stop", stanzaPreStop), ("post-stop", stanzaPostStop), ("expect", stanzaExpect),
  ("task", stanzaTask), ("kill", stanzaKill), ("reload", stanzaReload),
  ("respawn", stanzaRespawn), ("normal", stanzaNormal), ("console", stanzaConsole),
  ("umask", stanzaUmask), ("nice", stanzaNice), ("oom", stanzaOom), ("limit", stanzaLimit),
  ("chroot", stanzaChroot), ("chdir", stanzaChdir), ("setuid", stanzaSetuid),
  ("setgid", stanzaSetgid), ("debug", stanzaDebug), ("manual", stanzaManual),
  ("usage", stanzaUsage), ("apparmor", stanzaApparmor), ("cgroup", stanzaCgroup)]

/-- `nih_config_parse_stanza`: the handler of the name is called. -/
def parseStanza (x : Setup) (c : ClassSettings) (line : Line) : Outcome :=
  match stanzas.lookup line.stanza with
  | some handler => handler x c line
  | none => raised .unknownStanza c

/-- `nih_config_parse_file`: the stanzas in order, up to the first error. -/
def parseFile (x : Setup) : ClassSettings → List Line → Outcome
  | c, [] => ⟨none, c⟩
  | c, line :: file =>
    match parseStanza x c line with
    | ⟨none, c⟩ => parseFile x c file
    | ⟨some e, c⟩ => raised e c

/-- `parse_job`: what it returns.  The class that was to be updated is left as `parseFile`
leaves it; a new one is freed where there is an error. -/
def parseJob (x : Setup) (update : Option ClassSettings) (file : List Line) :
    Option ClassSettings :=
  match parseFile x (update.getD (jobClassNew x)) file with
  | ⟨none, c⟩ => some c
  | ⟨some _, _⟩ => none

end Startup.ParseJob
