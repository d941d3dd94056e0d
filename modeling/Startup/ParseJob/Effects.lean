import Startup.ParseJob.Stanzas

/-!
# What stanzas do (`init/parse_job.c`)

A stanza that is accepted gives one setting a value, adds to one of the arrays, or
adds to the control groups, whatever the class was; one that is not is refused in every
class.

* `Setting`: what has one value in a class, with `get` and `put`.
* `Additive`: the arrays.
* `Effect`: what a stanza does to the class.
* `Line.setting`, `Line.cgroup`: the setting that a stanza is for, by its name and its first
  word, and what it says of a control group.
* `parseStanza_acts`: every handler does what its stanza is for.
-/

namespace Startup.ParseJob

open Lib Numeral

/-! ## Settings -/

/-- The settings that have one value.  A respawn limit is a count and an interval. -/
inductive Setting where
  | instancePattern
  | description
  | author
  | version
  | startOn
  | stopOn
  | process (process : ProcessType)
  | expect
  | task
  | killTimeout
  | killSignal
  | reloadSignal
  | respawn
  | respawnLimit
  | console
  | umask
  | nice
  | oomScoreAdj
  | limit (resource : Fin rlimitNlimits)
  | chroot
  | chdir
  | setuid
  | setgid
  | debug
  | usage
  | apparmorSwitch
  deriving DecidableEq

/-- The values of a setting. -/
def Setting.Value : Setting → Type
  | instancePattern => Option String
  | description => Option String
  | author => Option String
  | version => Option String
  | startOn => Option EventOperator
  | stopOn => Option EventOperator
  | process _ => Option ProcessSetting
  | expect => ExpectType
  | task => Bool
  | killTimeout => Int
  | killSignal => Int
  | reloadSignal => Int
  | respawn => Bool
  | respawnLimit => Int × Int
  | console => Option ConsoleType
  | umask => Int
  | nice => Int
  | oomScoreAdj => Int
  | limit _ => Option Rlimit
  | chroot => Option String
  | chdir => Option String
  | setuid => Option String
  | setgid => Option String
  | debug => Bool
  | usage => Option String
  | apparmorSwitch => Option String

namespace ClassSettings

/-- The value of a setting. -/
def get (c : ClassSettings) : (s : Setting) → s.Value
  | .instancePattern => c.instancePattern
  | .description => c.description
  | .author => c.author
  | .version => c.version
  | .startOn => c.startOn
  | .stopOn => c.stopOn
  | .process p => c.process p
  | .expect => c.expect
  | .task => c.task
  | .killTimeout => c.killTimeout
  | .killSignal => c.killSignal
  | .reloadSignal => c.reloadSignal
  | .respawn => c.respawn
  | .respawnLimit => (c.respawnLimit, c.respawnInterval)
  | .console => c.console
  | .umask => c.umask
  | .nice => c.nice
  | .oomScoreAdj => c.oomScoreAdj
  | .limit resource => c.limits resource
  | .chroot => c.chroot
  | .chdir => c.chdir
  | .setuid => c.setuid
  | .setgid => c.setgid
  | .debug => c.debug
  | .usage => c.usage
  | .apparmorSwitch => c.apparmorSwitch

/-- A setting is given a value. -/
def put (c : ClassSettings) : (s : Setting) → s.Value → ClassSettings
  | .instancePattern, v => { c with instancePattern := v }
  | .description, v => { c with description := v }
  | .author, v => { c with author := v }
  | .version, v => { c with version := v }
  | .startOn, v => { c with startOn := v }
  | .stopOn, v => { c with stopOn := v }
  | .process p, v => { c with process := Function.update c.process p v }
  | .expect, v => { c with expect := v }
  | .task, v => { c with task := v }
  | .killTimeout, v => { c with killTimeout := v }
  | .killSignal, v => { c with killSignal := v }
  | .reloadSignal, v => { c with reloadSignal := v }
  | .respawn, v => { c with respawn := v }
  | .respawnLimit, v => { c with respawnLimit := v.1, respawnInterval := v.2 }
  | .console, v => { c with console := v }
  | .umask, v => { c with umask := v }
  | .nice, v => { c with nice := v }
  | .oomScoreAdj, v => { c with oomScoreAdj := v }
  | .limit resource, v => { c with limits := Function.update c.limits resource v }
  | .chroot, v => { c with chroot := v }
  | .chdir, v => { c with chdir := v }
  | .setuid, v => { c with setuid := v }
  | .setgid, v => { c with setgid := v }
  | .debug, v => { c with debug := v }
  | .usage, v => { c with usage := v }
  | .apparmorSwitch, v => { c with apparmorSwitch := v }

variable (c : ClassSettings) {s s' : Setting}

@[simp] theorem get_put_self (v : s.Value) : (c.put s v).get s = v := by
  cases s with
  | process p => exact Function.update_self ..
  | limit resource => exact Function.update_self ..
  | _ => rfl

theorem get_put_of_ne (h : s ≠ s') (v : s.Value) : (c.put s v).get s' = c.get s' := by
  cases s with
  | process p =>
    cases s' with
    | process p' =>
      have hne : p' ≠ p := fun heq => h (heq ▸ rfl)
      exact Function.update_of_ne hne ..
    | _ => rfl
  | limit resource =>
    cases s' with
    | limit resource' =>
      have hne : resource' ≠ resource := fun heq => h (heq ▸ rfl)
      exact Function.update_of_ne hne ..
    | _ => rfl
  | _ => cases s' <;> first | rfl | exact absurd rfl h

end ClassSettings

/-! ## Arrays -/

/-- The arrays to which stanzas append. -/
inductive Additive where
  | env
  | exports
  | emits
  | normalexit
  deriving DecidableEq

/-- What is in an array. -/
def Additive.Item : Additive → Type
  | env => String
  | exports => String
  | emits => String
  | normalexit => Int

namespace ClassSettings

/-- The items of an array. -/
def list (c : ClassSettings) : (a : Additive) → List a.Item
  | .env => c.env
  | .exports => c.exports
  | .emits => c.emits
  | .normalexit => c.normalexit

/-- Items are appended to an array. -/
def append (c : ClassSettings) : (a : Additive) → List a.Item → ClassSettings
  | .env, items => { c with env := List.append c.env items }
  | .exports, items => { c with exports := List.append c.exports items }
  | .emits, items => { c with emits := List.append c.emits items }
  | .normalexit, items => { c with normalexit := List.append c.normalexit items }

variable (c : ClassSettings) {a a' : Additive}

@[simp] theorem list_append_self (items : List a.Item) :
    (c.append a items).list a = c.list a ++ items := by
  cases a <;> rfl

theorem list_append_of_ne (h : a ≠ a') (items : List a.Item) :
    (c.append a items).list a' = c.list a' := by
  cases a <;> cases a' <;> first | rfl | exact absurd rfl h

theorem append_append (items items' : List a.Item) :
    (c.append a items).append a items' = c.append a (items ++ items') := by
  cases a <;> simp only [append] <;> congr 1 <;> exact List.append_assoc ..

@[simp] theorem get_append (items : List a.Item) (s : Setting) :
    (c.append a items).get s = c.get s := by
  cases a <;> cases s <;> rfl

@[simp] theorem list_put (s : Setting) (v : s.Value) (a : Additive) :
    (c.put s v).list a = c.list a := by
  cases s <;> cases a <;> rfl

@[simp] theorem cgroups_put (s : Setting) (v : s.Value) : (c.put s v).cgroups = c.cgroups := by
  cases s <;> rfl

@[simp] theorem cgroups_append (items : List a.Item) : (c.append a items).cgroups = c.cgroups := by
  cases a <;> rfl

end ClassSettings

/-! ## Effects -/

/-- What a `cgroup` stanza says. -/
structure CGroupEntry where
  controller : String
  name : Option String
  key : Option String
  value : Option String
  deriving DecidableEq

/-- What a stanza does to the class. -/
inductive Effect where
  | put (s : Setting) (v : s.Value)
  | append (a : Additive) (items : List a.Item)
  | cgroup (entry : CGroupEntry)
  | skip

namespace Effect

def apply (c : ClassSettings) : Effect → ClassSettings
  | put s v => c.put s v
  | append a items => c.append a items
  | cgroup e => { c with cgroups := cgroupAdd c.cgroups e.controller e.name e.key e.value }
  | skip => c

/-- The setting that is given a value. -/
def setting : Effect → Option Setting
  | put s _ => some s
  | append .. | cgroup _ | skip => none

/-- What is added to the control groups. -/
def entry : Effect → Option CGroupEntry
  | cgroup e => some e
  | put .. | append .. | skip => none

end Effect

/-- The setting that a stanza is for, by its name and its first word. -/
def Line.setting (x : Setup) (line : Line) : Option Setting :=
  let word := (line.words.head?.map Word.raw).getD ""
  match line.stanza with
  | "instance" => some .instancePattern
  | "description" => some .description
  | "author" => some .author
  | "version" => some .version
  | "start" => some .startOn
  | "manual" => some .startOn
  | "stop" => some .stopOn
  | "exec" => some (.process .main)
  | "script" => some (.process .main)
  | "pre-start" => some (.process .preStart)
  | "post-start" => some (.process .postStart)
  | "pre-stop" => some (.process .preStop)
  | "post-stop" => some (.process .postStop)
  | "expect" => some .expect
  | "task" => some .task
  | "kill" => if word = "timeout" then some .killTimeout else some .killSignal
  | "reload" => some .reloadSignal
  | "respawn" => if line.words = [] then some .respawn else some .respawnLimit
  | "console" => some .console
  | "umask" => some .umask
  | "nice" => some .nice
  | "oom" => some .oomScoreAdj
  | "limit" => (line.words.head?.bind fun arg => limitResource arg.text).map .limit
  | "chroot" => some .chroot
  | "chdir" => some .chdir
  | "setuid" => some .setuid
  | "setgid" => some .setgid
  | "debug" => if x.debugStanzaEnabled then some .debug else none
  | "usage" => some .usage
  | "apparmor" => if word = "load" then some (.process .security) else some .apparmorSwitch
  | _ => none

/-- What a stanza says of a control group. -/
def Line.cgroup (x : Setup) (line : Line) : Option CGroupEntry :=
  if line.stanza = "cgroup" ∧ x.enableCgroups then
    match line.words.map Word.text with
    | [controller] => some ⟨controller, none, none, none⟩
    | [controller, name] => some ⟨controller, some name, none, none⟩
    | [controller, key, value] => some ⟨controller, none, some key, some value⟩
    | [controller, name, key, value] => some ⟨controller, some name, some key, some value⟩
    | _ => none
  else none

/-- A handler refuses its stanza in every class, or does the same to every class, which is
what the stanza is for. -/
inductive Acts (setting : Option Setting) (entry : Option CGroupEntry)
    (handler : ClassSettings → Outcome) : Prop where
  | refuses (h : ∀ c, (handler c).error ≠ none)
  | does (e : Effect) (hs : e.setting = setting) (he : e.entry = entry)
      (h : ∀ c, handler c = ⟨none, e.apply c⟩)

variable {x : Setup} {line : Line} {words : List Word} {handler : ClassSettings → Outcome}
  {setting : Option Setting} {entry : Option CGroupEntry}

/-! ## The families of handlers -/

theorem acts_raised {e : StanzaError} {f : ClassSettings → ClassSettings} :
    Acts setting entry fun c => raised e (f c) :=
  .refuses fun _ => Option.some_ne_none _

theorem acts_ite {p : Prop} [Decidable p] {f g : ClassSettings → Outcome}
    (hf : Acts setting entry f) (hg : Acts setting entry g) :
    Acts setting entry fun c => if p then f c else g c := by
  by_cases hp : p
  · simpa only [if_pos hp] using hf
  · simpa only [if_neg hp] using hg

/-- A setting is given a value, and the line is at its end. -/
theorem acts_put {f : ClassSettings → ClassSettings} (s : Setting) (v : s.Value)
    (hf : ∀ c, f c = c.put s v) : Acts (some s) none fun c => skipComment (f c) words := by
  cases words with
  | nil => exact .does (.put s v) rfl rfl fun c => by rw [hf]; rfl
  | cons arg rest => exact acts_raised

theorem acts_storeArg {set : ClassSettings → Option String → ClassSettings} (s : Setting)
    (value : String → s.Value) (hset : ∀ c arg, set c (some arg) = c.put s (value arg)) :
    Acts (some s) none fun c => storeArg (set c) words := by
  cases words with
  | nil => exact acts_raised
  | cons arg rest => exact acts_put s (value arg.text) fun c => hset c arg.text

theorem acts_appendArgs {append : ClassSettings → List String → ClassSettings} (a : Additive)
    (items : List String → List a.Item)
    (happend : ∀ c args, append c args = c.append a (items args)) :
    Acts none none fun c => appendArgs c (append c) words := by
  unfold appendArgs
  split_ifs
  · exact acts_raised
  · exact .does (.append a (items (words.map Word.text))) rfl rfl fun c => by rw [happend]; rfl

theorem acts_storeCondition {set : ClassSettings → Option EventOperator → ClassSettings}
    (s : Setting) (value : Option EventOperator → s.Value)
    (hset : ∀ c root, set c root = c.put s (value root)) :
    Acts (some s) none fun c => storeCondition c (set c) line := by
  unfold storeCondition
  split
  · exact acts_raised
  split_ifs
  · cases parseTokens line.condition with
    | ok root =>
      exact .does (.put s (value root)) rfl rfl fun c => congrArg (Outcome.mk none) (hset c root)
    | error e => exact acts_raised
  · exact acts_raised

theorem acts_storeSignal {set : ClassSettings → Int → ClassSettings} (s : Setting)
    (value : Int → s.Value) (hset : ∀ c signal, set c signal = c.put s (value signal)) :
    Acts (some s) none fun c => storeSignal x c (set c) words := by
  unfold storeSignal
  split
  · exact acts_raised
  dsimp only
  split_ifs
  · exact acts_raised
  · exact acts_put s (value _) fun c => hset c _
  · exact acts_put s (value _) fun c => hset c _

/-- A process that has been allocated is written over. -/
theorem allocateProcess_put (c : ClassSettings) (process : ProcessType)
    (v : Option ProcessSetting) :
    (allocateProcess c process).put (.process process) v = c.put (.process process) v := by
  unfold allocateProcess
  split
  · rfl
  · simp [ClassSettings.put]

theorem acts_parseExec (process : ProcessType) :
    Acts (some (.process process)) none
      fun c => parseExec x (allocateProcess c process) process words := by
  unfold parseExec
  split_ifs
  · exact acts_raised
  · exact .does (.put (.process process) (some ⟨false, some (x.parseCommand words)⟩)) rfl rfl
      fun c => congrArg (Outcome.mk none) (allocateProcess_put c process _)

theorem acts_parseScript {block : Option String} (process : ProcessType) :
    Acts (some (.process process)) none
      fun c => parseScript (allocateProcess c process) process words block := by
  unfold parseScript
  dsimp only
  split_ifs
  · exact acts_raised
  · exact acts_raised
  · exact .does (.put (.process process) (some ⟨true, block⟩)) rfl rfl
      fun c => congrArg (Outcome.mk none) (allocateProcess_put c process _)

theorem acts_parseProcess (process : ProcessType) :
    Acts (some (.process process)) none fun c => parseProcess x c process line := by
  unfold parseProcess
  dsimp only
  split
  · exact acts_raised
  split_ifs
  · exact acts_parseExec process
  · exact acts_parseScript process
  · exact acts_raised

/-! ## The handlers -/

theorem acts_expect :
    Acts (some .expect) none fun c => stanzaExpect x c line := by
  unfold stanzaExpect
  split
  · exact acts_raised
  split_ifs
  · exact acts_put .expect .readyfd fun _ => rfl
  · exact acts_put .expect .stop fun _ => rfl
  · exact acts_put .expect .daemon fun _ => rfl
  · exact acts_put .expect .fork fun _ => rfl
  · exact acts_put .expect .none fun _ => rfl
  · exact acts_raised

theorem acts_killTimeout : Acts (some .killTimeout) none fun c => stanzaKillTimeout c words := by
  unfold stanzaKillTimeout
  split
  · exact acts_raised
  dsimp only
  split_ifs
  · exact acts_raised
  · exact acts_put .killTimeout _ fun _ => rfl

theorem acts_respawnLimit :
    Acts (some .respawnLimit) none fun c => stanzaRespawnLimit c words := by
  unfold stanzaRespawnLimit
  split
  · exact acts_raised
  dsimp only
  split_ifs
  · exact acts_raised
  · rename_i rest _ _
    cases rest with
    | nil => exact acts_raised
    | cons time rest =>
      dsimp only
      split_ifs
      · exact acts_raised
      · exact acts_put .respawnLimit (_, _) fun _ => rfl
  · exact acts_put .respawnLimit (0, 0) fun _ => rfl

/-- The status that an argument of `normal exit` stands for. -/
def exitStatus (x : Setup) (arg : Word) : Option Int :=
  if x.signalFromName arg.text < 0 then
    let status := strtoul 10 arg.text.toList
    if status.erange ∨ status.endptr ≠ [] ∨ intMax < status.value then none
    else some (toInt status.value)
  else some (toInt (x.signalFromName arg.text * 2 ^ 8))

theorem normalExits_cons (x : Setup) (c : ClassSettings) (arg : Word) (rest : List Word) :
    normalExits x c (arg :: rest) =
      match exitStatus x arg with
      | none => raised .illegalExit c
      | some status =>
        if rest = [] then ⟨none, c.append .normalexit [status]⟩
        else normalExits x (c.append .normalexit [status]) rest := by
  conv_lhs => unfold normalExits
  unfold exitStatus
  dsimp only
  split_ifs <;> rfl

/-- The statuses of `normal exit` are appended one by one. -/
theorem normalExits_acts (x : Setup) (words : List Word) :
    (∀ c, (normalExits x c words).error ≠ none) ∨
      ∃ statuses, ∀ c, normalExits x c words = ⟨none, c.append .normalexit statuses⟩ := by
  induction words with
  | nil => exact .inl fun _ => Option.some_ne_none _
  | cons arg rest ih =>
    simp only [normalExits_cons]
    cases exitStatus x arg with
    | none => exact .inl fun _ => Option.some_ne_none _
    | some status =>
      dsimp only
      split_ifs
      · exact .inr ⟨[status], fun _ => rfl⟩
      rcases ih with ih | ⟨statuses, ih⟩
      · exact .inl fun c => ih _
      · right
        apply Exists.intro (List.append [status] statuses)
        intro c
        rw [ih, ClassSettings.append_append]
        rfl

theorem acts_normal : Acts none none fun c => stanzaNormal x c line := by
  unfold stanzaNormal
  split
  · exact acts_raised
  split_ifs
  · rename_i arg rest _ _
    rcases normalExits_acts x rest with h | ⟨statuses, h⟩
    · exact .refuses h
    · exact .does (.append .normalexit statuses) rfl rfl h
  · exact acts_raised

theorem acts_console : Acts (some .console) none fun c => stanzaConsole x c line := by
  unfold stanzaConsole
  split
  · exact acts_raised
  dsimp only
  split_ifs
  · exact acts_raised
  · exact acts_put .console _ fun _ => rfl

theorem acts_umask : Acts (some .umask) none fun c => stanzaUmask x c line := by
  unfold stanzaUmask
  split
  · exact acts_raised
  dsimp only
  split_ifs
  · exact acts_raised
  · exact acts_put .umask _ fun _ => rfl

theorem acts_nice : Acts (some .nice) none fun c => stanzaNice x c line := by
  unfold stanzaNice
  split
  · exact acts_raised
  dsimp only
  split_ifs
  · exact acts_raised
  · exact acts_put .nice _ fun _ => rfl

theorem acts_oomScore : Acts (some .oomScoreAdj) none fun c => stanzaOomScore c words := by
  unfold stanzaOomScore
  split
  · exact acts_raised
  dsimp only
  split_ifs
  · exact acts_put .oomScoreAdj (-1000 : Int) fun _ => rfl
  · exact acts_raised
  · exact acts_put .oomScoreAdj _ fun _ => rfl

theorem acts_oom : Acts (some .oomScoreAdj) none fun c => stanzaOom x c line := by
  unfold stanzaOom
  split
  · exact acts_raised
  dsimp only
  apply acts_ite acts_oomScore
  apply acts_ite (acts_put .oomScoreAdj (-1000 : Int) fun _ => rfl)
  apply acts_ite acts_raised
  apply acts_ite acts_raised
  exact acts_put .oomScoreAdj _ fun _ => rfl

theorem acts_limit (resource : Fin rlimitNlimits) :
    Acts (some (.limit resource)) none fun c => stanzaLimitOf x c resource words := by
  unfold stanzaLimitOf
  dsimp only
  split
  · exact acts_raised
  split_ifs
  · exact acts_raised
  split
  · exact acts_raised
  split_ifs
  · exact acts_raised
  · exact acts_put (.limit resource) (some ⟨_, _⟩) fun _ => rfl

/-- An entry is added, if there is support for control groups. -/
theorem acts_addCgroup (e : CGroupEntry) {entry : Option CGroupEntry}
    (hentry : entry = if x.enableCgroups then some e else none) :
    Acts none entry fun c =>
      if x.enableCgroups then
        skipComment { c with
          cgroups := cgroupAdd c.cgroups e.controller e.name e.key e.value } []
      else skipComment c [] := by
  subst hentry
  split_ifs
  · exact .does (.cgroup e) rfl rfl fun _ => rfl
  · exact .does .skip rfl rfl fun _ => rfl

theorem acts_cgroup {block : Option String} {condition : List OnToken} :
    Acts none (Line.cgroup x ⟨"cgroup", words, block, condition⟩)
      fun c => stanzaCgroup x c ⟨"cgroup", words, block, condition⟩ := by
  have hcgroup : Line.cgroup x ⟨"cgroup", words, block, condition⟩ =
      if x.enableCgroups then
        match words.map Word.text with
        | [controller] => some ⟨controller, none, none, none⟩
        | [controller, name] => some ⟨controller, some name, none, none⟩
        | [controller, key, value] => some ⟨controller, none, some key, some value⟩
        | [controller, name, key, value] => some ⟨controller, some name, some key, some value⟩
        | _ => none
      else none := by simp [Line.cgroup]
  rw [hcgroup]
  unfold stanzaCgroup parseCgroup
  match words with
  | [] => exact acts_raised
  | [controller] => exact acts_addCgroup ⟨controller.text, none, none, none⟩ rfl
  | [controller, name] => exact acts_addCgroup ⟨controller.text, name.text, none, none⟩ rfl
  | [controller, key, value] =>
    exact acts_addCgroup ⟨controller.text, none, key.text, value.text⟩ rfl
  | [controller, name, key, value] =>
    exact acts_addCgroup ⟨controller.text, name.text, key.text, value.text⟩ rfl
  | _ :: _ :: _ :: _ :: _ :: _ => exact acts_ite acts_raised acts_raised

theorem acts_apparmor {block : Option String} {condition : List OnToken} :
    Acts (Line.setting x ⟨"apparmor", words, block, condition⟩) none
      fun c => stanzaApparmor x c ⟨"apparmor", words, block, condition⟩ := by
  unfold stanzaApparmor
  cases words with
  | nil => exact acts_raised
  | cons arg rest =>
    show Acts (if arg.raw = "load" then some (.process .security) else some .apparmorSwitch) none _
    dsimp only
    split_ifs
    · cases rest with
      | nil => exact acts_raised
      | cons profile rest => exact acts_put (.process .security) (some ⟨false, some _⟩) fun _ => rfl
    · exact acts_storeArg .apparmorSwitch some fun _ _ => rfl
    · exact acts_raised

theorem acts_kill {block : Option String} {condition : List OnToken} :
    Acts (Line.setting x ⟨"kill", words, block, condition⟩) none
      fun c => stanzaKill x c ⟨"kill", words, block, condition⟩ := by
  unfold stanzaKill
  cases words with
  | nil => exact acts_raised
  | cons arg rest =>
    show Acts (if arg.raw = "timeout" then some .killTimeout else some .killSignal) none _
    dsimp only
    split_ifs
    · exact acts_killTimeout
    · exact acts_storeSignal .killSignal id fun _ _ => rfl
    · exact acts_raised

theorem acts_reload : Acts (some .reloadSignal) none fun c => stanzaReload x c line := by
  unfold stanzaReload
  split
  · exact acts_raised
  split_ifs
  · exact acts_storeSignal .reloadSignal id fun _ _ => rfl
  · exact acts_raised

theorem acts_respawn {block : Option String} {condition : List OnToken} :
    Acts (Line.setting x ⟨"respawn", words, block, condition⟩) none
      fun c => stanzaRespawn x c ⟨"respawn", words, block, condition⟩ := by
  unfold stanzaRespawn
  cases words with
  | nil => exact .does (.put .respawn true) rfl rfl fun _ => rfl
  | cons arg rest =>
    show Acts (some .respawnLimit) none _
    dsimp only
    split_ifs
    · exact acts_respawnLimit
    · exact acts_raised

theorem acts_stanzaLimit {block : Option String} {condition : List OnToken} :
    Acts (Line.setting x ⟨"limit", words, block, condition⟩) none
      fun c => stanzaLimit x c ⟨"limit", words, block, condition⟩ := by
  unfold stanzaLimit
  cases words with
  | nil => exact acts_raised
  | cons arg rest =>
    show Acts ((limitResource arg.text).map .limit) none _
    dsimp only
    cases limitResource arg.text with
    | none => exact acts_raised
    | some resource => exact acts_limit resource

theorem acts_env : Acts none none fun c => stanzaEnv x c line := by
  unfold stanzaEnv
  split
  · exact acts_raised
  · rename_i arg rest _
    cases rest with
    | nil => exact .does (.append .env [arg.text]) rfl rfl fun _ => rfl
    | cons arg rest => exact acts_raised

theorem acts_debug {block : Option String} {condition : List OnToken} :
    Acts (Line.setting x ⟨"debug", words, block, condition⟩) none
      fun c => stanzaDebug x c ⟨"debug", words, block, condition⟩ := by
  show Acts (if x.debugStanzaEnabled then some .debug else none) none _
  unfold stanzaDebug
  split_ifs
  · exact .does (.put .debug true) rfl rfl fun _ => rfl
  · exact .does .skip rfl rfl fun _ => rfl

/-- Every handler does what its stanza is for. -/
theorem stanzas_act (x : Setup) (words : List Word) (block : Option String)
    (condition : List OnToken) (p : String × (Setup → ClassSettings → Line → Outcome))
    (hp : p ∈ stanzas) :
    Acts (Line.setting x ⟨p.1, words, block, condition⟩) (Line.cgroup x ⟨p.1, words, block, condition⟩)
      fun c => p.2 x c ⟨p.1, words, block, condition⟩ := by
  simp only [stanzas, List.mem_cons, List.not_mem_nil, or_false] at hp
  rcases hp with rfl | rfl | rfl | rfl | rfl | rfl | rfl | rfl | rfl | rfl | rfl | rfl | rfl | rfl |
    rfl | rfl | rfl | rfl | rfl | rfl | rfl | rfl | rfl | rfl | rfl | rfl | rfl | rfl | rfl | rfl |
    rfl | rfl | rfl | rfl | rfl
  · exact acts_storeArg .instancePattern some fun _ _ => rfl
  · exact acts_storeArg .description some fun _ _ => rfl
  · exact acts_storeArg .author some fun _ _ => rfl
  · exact acts_storeArg .version some fun _ _ => rfl
  · exact acts_env (x := x)
  · exact acts_appendArgs .exports id fun _ _ => rfl
  · exact acts_storeCondition .startOn id fun _ _ => rfl
  · exact acts_storeCondition .stopOn id fun _ _ => rfl
  · exact acts_appendArgs .emits id fun _ _ => rfl
  · exact acts_parseExec .main
  · exact acts_parseScript .main
  · exact acts_parseProcess .preStart
  · exact acts_parseProcess .postStart
  · exact acts_parseProcess .preStop
  · exact acts_parseProcess .postStop
  · exact acts_expect (x := x)
  · exact acts_put .task true fun _ => rfl
  · exact acts_kill
  · exact acts_reload
  · exact acts_respawn
  · exact acts_normal
  · exact acts_console (x := x)
  · exact acts_umask (x := x)
  · exact acts_nice (x := x)
  · exact acts_oom (x := x)
  · exact acts_stanzaLimit
  · exact acts_storeArg .chroot some fun _ _ => rfl
  · exact acts_storeArg .chdir some fun _ _ => rfl
  · exact acts_storeArg .setuid some fun _ _ => rfl
  · exact acts_storeArg .setgid some fun _ _ => rfl
  · exact acts_debug
  · exact .does (.put .startOn none) rfl rfl fun _ => rfl
  · exact acts_storeArg .usage some fun _ _ => rfl
  · exact acts_apparmor
  · exact acts_cgroup

theorem parseStanza_acts (x : Setup) (line : Line) :
    Acts (line.setting x) (line.cgroup x) fun c => parseStanza x c line := by
  unfold parseStanza
  cases hlookup : stanzas.lookup line.stanza with
  | none => exact acts_raised
  | some handler =>
    obtain ⟨l₁, l₂, heq, -⟩ := List.lookup_eq_some_iff.mp hlookup
    have hmem : (line.stanza, handler) ∈ stanzas := by simp [heq]
    exact stanzas_act x line.words line.block line.condition _ hmem

end Startup.ParseJob
