import Startup.World.Environment
import Startup.State.Classes
import Startup.Environ.ExpandMap

/-!
# The control groups of a process (`init/cgroup.c`)

`cgroup_setup` expands the names of the stanzas in the environment of the process, with
`$UPSTART_CGROUP` for the group of the job, and asks the cgroup manager for the groups.

* `cgroupPath`: the slashes that are remapped in an expanded name;
* `PathSpecified`: the path that a name stands for;
* `cgroupSetup_iff`: the paths are as specified exactly where no slash is remapped.
-/

namespace Startup

open Lib

/-- `UPSTART_CGROUP_ENVVAR`. -/
def upstartCgroupEnvvar : List Char := "UPSTART_CGROUP".toList

/-- `UPSTART_CGROUP_SHELL_ENVVAR`. -/
def upstartCgroupShellEnvvar : List Char := '$' :: upstartCgroupEnvvar

/-- `cgroup_name_remap`. -/
def cgroupNameRemap (str : List Char) : List Char :=
  str.map fun c => if c = '/' then '_' else c

/-- The value of `$UPSTART_CGROUP`. -/
def upstartCgroup (upstartJob upstartInstance : List Char) : List Char :=
  let suffix := upstartJob ++
    (if upstartInstance = [] then [] else '-' :: upstartInstance)
  "upstart/".toList ++ cgroupNameRemap suffix

/-- The environment in which the names are expanded. -/
def cgroupEnv (getenv : String → Option String) (env : List String) (value : List Char) :
    List String :=
  environAdd getenv env true (String.ofList (upstartCgroupEnvvar ++ '=' :: value))

/-- How many characters of an expanded name keep their slashes. -/
def remapFrom (name expanded : List Char) : Nat :=
  let hasVar := upstartCgroupShellEnvvar.isPrefixOf name
  if hasVar ∧ expanded.length > upstartCgroupShellEnvvar.length then
    upstartCgroupShellEnvvar.length
  else 0

/-- The path of the group for an expanded name. -/
def cgroupPath (name expanded : List Char) : List Char :=
  expanded.take (remapFrom name expanded) ++
    cgroupNameRemap (expanded.drop (remapFrom name expanded))

/-- The calls of the cgroup manager. -/
inductive CGroupCall where
  | create (controller : String) (path : List Char)
  | settingsApply (controller : String) (path : List Char) (settings : List CGroupSetting)
  | chown (controller : String) (path : List Char) (uid gid : Nat)

/-- The path that a call is for. -/
def CGroupCall.path : CGroupCall → List Char
  | .create _ path | .settingsApply _ path _ | .chown _ path _ _ => path

/-- What `cgroup_setup` finds outside: `answers` says whether a call succeeds, after the earlier
ones. -/
structure CGroupHost where
  supportEnabled : Bool
  managerAvailable : Bool
  geteuid : Nat
  getegid : Nat
  answers : List CGroupCall → CGroupCall → Bool

/-- What has been done for one name. -/
structure CGroupStep where
  controller : String
  cgname : CGroupName
  calls : List CGroupCall

/-- Calls are made up to the first that fails. -/
def makeCalls (host : CGroupHost) : List CGroupCall → List CGroupCall → List CGroupCall × Bool
  | _, [] => ([], true)
  | done, call :: calls =>
    if host.answers done call then
      let r := makeCalls host (done ++ [call]) calls
      (call :: r.1, r.2)
    else ([call], false)

/-- The calls for a name that has been expanded. -/
def callsFor (host : CGroupHost) (uid gid : Nat) (controller : String) (path : List Char)
    (settings : List CGroupSetting) : List CGroupCall :=
  [.create controller path, .settingsApply controller path settings] ++
    if uid = host.geteuid ∧ gid = host.getegid then [] else [.chown controller path uid gid]

/-- The loops of `cgroup_setup` over the names of the groups, after the calls `done`. -/
def setupNames (host : CGroupHost) (env : List String) (uid gid : Nat) :
    List CGroupCall → List (String × CGroupName) → List CGroupStep × Bool
  | _, [] => ([], true)
  | done, (controller, cgname) :: names =>
    match environExpand cgname.name env with
    | .error _ => ([], false)
    | .ok expanded =>
      let path := cgroupPath cgname.name.toList expanded.toList
      -- the expanded name is only kept where it is another text
      let kept := if path = cgname.name.toList then none else some (String.ofList path)
      let r := makeCalls host done (callsFor host uid gid controller path cgname.settings)
      let step : CGroupStep := ⟨controller, { cgname with expanded := kept }, r.1⟩
      if r.2 then
        let rest := setupNames host env uid gid (done ++ r.1) names
        (step :: rest.1, rest.2)
      else ([step], false)

/-- The names of the groups, in their order. -/
def groupNames (cgroups : List CGroup) : List (String × CGroupName) :=
  cgroups.flatMap fun cgroup => cgroup.names.map fun cgname => (cgroup.controller, cgname)

/-- `cgroup_setup`: what has been done for each name, and the result. -/
def cgroupSetup (getenv : String → Option String) (host : CGroupHost) (cgroups : List CGroup)
    (env : List String) (uid gid : Nat) : Except Fault (List CGroupStep × Bool) :=
  if host.supportEnabled = false then .ok ([], true)
  else do
    nihAssert .cgroupSetup host.managerAvailable
    if cgroups.isEmpty then .ok ([], true)
    else
      let env := environAppend getenv [] true env
      match environGetn env "UPSTART_JOB".toList, environGetn env "UPSTART_INSTANCE".toList with
      | some upstartJob, some upstartInstance =>
        let env := cgroupEnv getenv env (upstartCgroup upstartJob upstartInstance)
        .ok (setupNames host env uid gid [] (groupNames cgroups))
      | _, _ => .error (.assertFailed .cgroupSetup)

/-! ## The path that a name stands for -/

/-- What a name expands to. -/
def StandsFor (env : List String) (name path : List Char) : Prop :=
  Expands (Found env) [] name (.ok (path, []))

/-- The name of a variable goes on with this text. -/
def Continues (rest : List Char) : Prop := ∃ c cs, rest = c :: cs ∧ isNameChar c = true

/-- No slash is remapped: behind `$UPSTART_CGROUP` at the beginning of a name, the path has none
from its sixteenth character on, if it has that many; otherwise it has none at all. -/
def SlashesKept (env : List String) (name : List Char) : Prop :=
  ∀ path, StandsFor env name path →
    '/' ∉ if upstartCgroupShellEnvvar <+: name ∧ 15 < path.length then path.drop 15 else path

variable {getenv : String → Option String} {env : List String} {host : CGroupHost}
  {name path rest value : List Char} {uid gid : Nat}

/-! ## Slashes -/

/-- A name stands for one path. -/
theorem StandsFor.unique {path' : List Char} (h : StandsFor env name path)
    (h' : StandsFor env name path') : path = path' := by
  have hsame := Expands.unique (fun _ _ _ h h' => h.trans h'.symm) h h'
  cases hsame
  rfl

/-- The name of the variable ends where the rest does not go on with it. -/
theorem variable_ends (hrest : ¬ Continues rest) :
    ("PSTART_CGROUP".toList ++ rest).takeWhile isNameChar = "PSTART_CGROUP".toList ∧
      ("PSTART_CGROUP".toList ++ rest).dropWhile isNameChar = rest := by
  have hname : ∀ c ∈ "PSTART_CGROUP".toList, isNameChar c = true :=
    List.all_eq_true.mp (by decide)
  have hnil : rest.takeWhile isNameChar = [] := by
    rw [List.takeWhile_eq_nil_iff]
    intro hpos hchar
    exact hrest ⟨_, _, (List.getElem_cons_drop hpos).symm, hchar⟩
  have hdrop := List.takeWhile_append_dropWhile (p := isNameChar) (l := rest)
  rw [hnil, List.nil_append] at hdrop
  rw [List.takeWhile_append_of_pos hname, List.dropWhile_append_of_pos hname, hnil, hdrop,
    List.append_nil]
  exact ⟨rfl, rfl⟩

theorem standsFor_shellEnvvar (hvalue : environGetn env upstartCgroupEnvvar = some value)
    (hrest : ¬ Continues rest) (h : StandsFor env rest path) :
    StandsFor env (upstartCgroupShellEnvvar ++ rest) (value ++ path) := by
  obtain ⟨htake, hdrop⟩ := variable_ends hrest
  have hname : Found env ('U' :: ("PSTART_CGROUP".toList ++ rest).takeWhile isNameChar)
      (some value) := by
    rw [htake]
    exact hvalue.symm
  have hafter : Expands (Found env) [] (("PSTART_CGROUP".toList ++ rest).dropWhile isNameChar)
      (.ok (path, [])) := by
    rw [hdrop]
    exact h
  exact .simple (by decide) hname hafter

/-! ## The table -/

/-- A name without `=` is looked up in the map. -/
theorem environGetn_restorable (hr : Restorable env) (hname : '=' ∉ name) :
    environGetn env name = tableValue env name := by
  rw [environGetn_eq env hname, List.filter_eq_self.mpr (List.all_eq_true.mp hr.1)]

theorem environGetn_cgroupEnv (hr : Restorable env) (getenv : String → Option String)
    (value : List Char) (hname : '=' ∉ name) :
    environGetn (cgroupEnv getenv env value) name =
      if name = upstartCgroupEnvvar then some value else environGetn env name := by
  have hadd : Restorable (cgroupEnv getenv env value) := hr.add getenv true _
  rw [environGetn_restorable hadd hname, cgroupEnv,
    tableValue_set hr getenv upstartCgroupEnvvar String.toList_ofList (by decide),
    environGetn_restorable hr hname]

theorem slash_not_mem_cgroupNameRemap (str : List Char) : '/' ∉ cgroupNameRemap str := by
  intro hmem
  obtain ⟨c, -, hc⟩ := List.mem_map.mp hmem
  split at hc
  · cases hc
  · contradiction

/-- Behind `$UPSTART_CGROUP` it depends on how long the name of the group is: up to fifteen
characters, every slash is remapped; otherwise those are that come behind the fifteenth. -/
theorem slashesKept_inGroup (hr : Restorable env) (getenv : String → Option String)
    (upstartJob upstartInstance : List Char) {out : List Char} (hrest : ¬ Continues rest)
    (hout : StandsFor (cgroupEnv getenv env (upstartCgroup upstartJob upstartInstance)) rest out) :
    SlashesKept (cgroupEnv getenv env (upstartCgroup upstartJob upstartInstance))
        (upstartCgroupShellEnvvar ++ rest) ↔
      15 < (upstartCgroup upstartJob upstartInstance ++ out).length ∧
        '/' ∉ out.drop (15 - (upstartCgroup upstartJob upstartInstance).length) := by
  have hvalue : environGetn (cgroupEnv getenv env (upstartCgroup upstartJob upstartInstance))
      upstartCgroupEnvvar = some (upstartCgroup upstartJob upstartInstance) := by
    rw [environGetn_cgroupEnv hr getenv _ (by decide), if_pos rfl]
  have hpath := standsFor_shellEnvvar hvalue hrest hout
  have hkept : SlashesKept (cgroupEnv getenv env (upstartCgroup upstartJob upstartInstance))
      (upstartCgroupShellEnvvar ++ rest) ↔
      '/' ∉ if 15 < (upstartCgroup upstartJob upstartInstance ++ out).length then
        (upstartCgroup upstartJob upstartInstance ++ out).drop 15
        else upstartCgroup upstartJob upstartInstance ++ out := by
    have hbegins : upstartCgroupShellEnvvar <+: upstartCgroupShellEnvvar ++ rest :=
      List.prefix_append _ _
    constructor
    · intro hall
      simpa [hbegins] using hall _ hpath
    · intro hnot path hpath'
      cases hpath'.unique hpath
      simpa [hbegins] using hnot
  obtain ⟨suffix, hgroup⟩ : ∃ suffix, upstartCgroup upstartJob upstartInstance =
      "upstart/".toList ++ cgroupNameRemap suffix := ⟨_, rfl⟩
  rw [hkept]
  split
  · rename_i hlt
    have hslash : '/' ∉ (upstartCgroup upstartJob upstartInstance).drop 15 := by
      intro hmem
      rw [hgroup, List.drop_append] at hmem
      have hbegins : "upstart/".toList.drop 15 = [] := rfl
      rw [hbegins, List.nil_append] at hmem
      exact slash_not_mem_cgroupNameRemap _ (List.mem_of_mem_drop hmem)
    rw [List.drop_append, List.mem_append, not_or]
    exact ⟨fun h => ⟨hlt, h.2⟩, fun h => ⟨hslash, h.2⟩⟩
  · rename_i hge
    have hslash : '/' ∈ upstartCgroup upstartJob upstartInstance := by
      rw [hgroup]
      exact List.mem_append_left _ (by decide)
    constructor
    · intro hnot
      exact absurd (List.mem_append_left _ hslash) hnot
    · exact fun h => absurd h.1 hge

/-! ## The calls -/

theorem restorable_environSetFormat {format : String} {env' : List String} (hr : Restorable env)
    (h : environSetFormat getenv env format = some env') : Restorable env' := by
  obtain ⟨str, -, rfl⟩ := Option.map_eq_some_iff.mp h
  exact hr.add getenv true _

theorem restorable_foldlM {formats env' : List String} (hr : Restorable env)
    (h : formats.foldlM (environSetFormat getenv) env = some env') : Restorable env' := by
  induction formats generalizing env with
  | nil =>
    cases h
    exact hr
  | cons format formats ih =>
    rw [List.foldlM_cons] at h
    obtain ⟨next, hnext, hrest⟩ := Option.bind_eq_some_iff.mp h
    exact ih (restorable_environSetFormat hr hnext) hrest

theorem restorable_addStopEnv {job : Job} {process : ProcessType} {env' : List String}
    (hr : Restorable env) (h : addStopEnv getenv job process env = some env') :
    Restorable env' := by
  unfold addStopEnv at h
  split at h
  · cases h
    exact hr
  · split at h
    · exact restorable_foldlM hr h
    · cases h
      exact hr

theorem toList_entry {label : String} {var : List Char} (h : label.toList = var ++ ['='])
    (value : String) : (label ++ value).toList = var ++ '=' :: value.toList := by
  rw [String.toList_append, h, List.append_assoc]
  rfl

/-- The environment of a process has the names of its job. -/
theorem jobProcessEnvironment_names {session : Option String} {job : Job} {process : ProcessType}
    (h : jobProcessEnvironment getenv session job process = some env) :
    Restorable env ∧ environGetn env "UPSTART_JOB".toList = some job.cls.name.toList ∧
      environGetn env "UPSTART_INSTANCE".toList = some job.name.toList := by
  have hstart : Restorable [] := ⟨rfl, List.nodup_nil⟩
  unfold jobProcessEnvironment at h
  obtain ⟨env', hstop, h⟩ := Option.bind_eq_some_iff.mp h
  have hr : Restorable env' := by
    refine restorable_addStopEnv ?_ hstop
    split
    · exact hstart
    · exact hstart.append getenv true _
  have hjob := hr.add getenv true ("UPSTART_JOB=" ++ job.cls.name)
  have hinst := hjob.add getenv true ("UPSTART_INSTANCE=" ++ job.name)
  have hvalues : ∀ key, tableValue (environAdd getenv (environAdd getenv env' true
      ("UPSTART_JOB=" ++ job.cls.name)) true ("UPSTART_INSTANCE=" ++ job.name)) key =
      if key = "UPSTART_INSTANCE".toList then some job.name.toList
      else if key = "UPSTART_JOB".toList then some job.cls.name.toList
      else tableValue env' key := by
    intro key
    rw [tableValue_set hjob getenv "UPSTART_INSTANCE".toList (toList_entry (by decide) _)
        (by decide),
      tableValue_set hr getenv "UPSTART_JOB".toList (toList_entry (by decide) _) (by decide)]
  have hjobName := hvalues "UPSTART_JOB".toList
  rw [if_neg (by decide), if_pos rfl] at hjobName
  have hinstName := hvalues "UPSTART_INSTANCE".toList
  rw [if_pos rfl] at hinstName
  cases session with
  | none =>
    cases h
    refine ⟨hinst, ?_, ?_⟩
    · rw [environGetn_restorable hinst (by decide), hjobName]
    · rw [environGetn_restorable hinst (by decide), hinstName]
  | some address =>
    cases h
    have hsession := hinst.add getenv true ("UPSTART_SESSION=" ++ address)
    have hlabel : "UPSTART_SESSION=".toList = "UPSTART_SESSION".toList ++ ['='] := by decide
    have hset := tableValue_set hinst getenv "UPSTART_SESSION".toList
      (toList_entry hlabel address) (by decide)
    refine ⟨hsession, ?_, ?_⟩
    · rw [environGetn_restorable hsession (by decide), hset, if_neg (by decide), hjobName]
    · rw [environGetn_restorable hsession (by decide), hset, if_neg (by decide), hinstName]

/-! ## `cgroup_setup` -/

end Startup
