import Startup.Spawn.Groups

/-!
# The settings of the class

One lemma for each step: what it changes, and that nothing else does.

* `Profiled`, `OomSet`, `IdsOf`: what the profile, the score and the ids come to.
* `limitResources_step`: the loop over the resources; the invariant is that those that have been
  gone through have the limits of the class.
-/

namespace Startup.Spawn

open Lib Lib.Descriptors ParseJob

variable {k : Kernel} {a : Args} {err : Nat} {s : Child}

/-- The profile is that of the class, for the main process. -/
def Profiled (k : Kernel) (a : Args) (env : List String) (before after : Option String) : Prop :=
  match a.cls.apparmorSwitch with
  | none => after = before
  | some profile =>
    if a.process = .main ∧ k.apparmorAvailable = true then
      ∃ expanded, environExpand profile env = .ok expanded ∧ after = some expanded
    else after = before

theorem switchProfile_step (h : Ready k a err s) (env : List String) (henv : s.environ = env) :
    Step k a err (switchProfile k a env err) s fun _ s' =>
      ∃ calls profile, s' = { s with calls := calls, profile := profile } ∧
        Profiled k a env s.profile profile := by
  unfold switchProfile
  have hsame : ∃ calls profile, s = { s with calls := calls, profile := profile } ∧
      profile = s.profile := ⟨_, _, rfl, rfl⟩
  cases hswitch : a.cls.apparmorSwitch with
  | none => exact .pure h (by simpa [Profiled, hswitch] using hsame)
  | some profile =>
    refine .ite (fun hmain => ?_) fun hother => ?_
    · cases hexpand : environExpand profile env with
      | error e =>
        exact .of_sat (jobProcessErrorAbort_sat h.pipe
          (.badProfile hswitch h.passed (henv ▸ hexpand)))
      | ok expanded =>
        refine .ite (fun havailable => ?_) fun hmissing => ?_
        · refine (Step.call h rfl (fun _ => rfl) (by trivial) rfl rfl rfl).imp ?_
          rintro - - rfl
          refine ⟨_, _, rfl, ?_⟩
          simp [Profiled, hswitch, hmain, havailable, hexpand]
        · exact .pure h (by simpa [Profiled, hswitch, hmissing] using hsame)
    · exact .pure h (by simpa [Profiled, hswitch, hother] using hsame)

/-- The limits behind those of some resources. -/
def limitsBehind (a : Args) (done : List (Fin rlimitNlimits))
    (limits : Fin rlimitNlimits → Option Rlimit) : Fin rlimitNlimits → Option Rlimit :=
  fun i => if i ∈ done then (a.cls.limits i).or (limits i) else limits i

theorem limitsBehind_nil (limits : Fin rlimitNlimits → Option Rlimit) :
    limitsBehind a [] limits = limits := by
  funext i
  simp [limitsBehind]

theorem limitsBehind_all (limits : Fin rlimitNlimits → Option Rlimit) :
    limitsBehind a (List.finRange rlimitNlimits) limits =
      fun i => (a.cls.limits i).or (limits i) := by
  funext i
  simp [limitsBehind]

theorem limitsBehind_unset {i : Fin rlimitNlimits} {done : List (Fin rlimitNlimits)}
    (limits : Fin rlimitNlimits → Option Rlimit) (hi : a.cls.limits i = none) :
    limitsBehind a (done ++ [i]) limits = limitsBehind a done limits := by
  funext j
  by_cases hj : j = i
  · subst hj
    simp [limitsBehind, hi]
  · simp [limitsBehind, hj]

theorem limitsBehind_set {i : Fin rlimitNlimits} {done : List (Fin rlimitNlimits)}
    {limit : Rlimit} (limits : Fin rlimitNlimits → Option Rlimit)
    (hi : a.cls.limits i = some limit) :
    limitsBehind a (done ++ [i]) limits =
      Function.update (limitsBehind a done limits) i (some limit) := by
  funext j
  by_cases hj : j = i
  · subst hj
    simp [limitsBehind, hi]
  · simp [limitsBehind, hj]

theorem limitResources_step (h : Ready k a err s) :
    Step k a err (limitResources k a err) s fun _ s' =>
      ∃ calls, s' = { s with
        calls := calls, limits := fun i => (a.cls.limits i).or (s.limits i) } := by
  unfold limitResources
  refine (Step.forM (I := fun done s' => ∃ calls, s' = { s with
    calls := calls, limits := limitsBehind a done s.limits }) h
    ⟨s.calls, by rw [limitsBehind_nil]⟩ ?_).imp ?_
  · rintro done i rest s' - h' ⟨calls, rfl⟩
    cases hi : a.cls.limits i with
    | none => exact .pure h' ⟨calls, by rw [limitsBehind_unset _ hi]⟩
    | some limit =>
      refine (Step.call h' rfl (fun _ => rfl) (by exact hi) rfl rfl rfl).imp ?_
      rintro - - rfl
      exact ⟨_, by rw [limitsBehind_set _ hi]; rfl⟩
  · rintro - s' ⟨calls, rfl⟩
    exact ⟨calls, by rw [limitsBehind_all]⟩

theorem setPriority_step (h : Ready k a err s) :
    Step k a err (setPriority k a err) s fun _ s' =>
      ∃ calls, s' = { s with
        calls := calls
        umask := some a.cls.umask
        nice := if a.cls.nice = -21 then s.nice else some a.cls.nice } := by
  refine (Step.modify h rfl rfl rfl).bind ?_
  rintro - - h rfl
  refine .when h (fun hnice => ?_) fun hnice => ?_
  · refine (Step.call h rfl (fun _ => rfl) (by exact ⟨rfl, hnice⟩) rfl rfl rfl).imp ?_
    rintro - - rfl
    exact ⟨_, by rw [if_neg hnice]; rfl⟩
  · exact ⟨s.calls, by rw [if_pos (not_not.mp hnice)]⟩

/-- What is written for the score of the class: the score, or the value for older kernels. -/
def OomSet (a : Args) (before after : Option (Bool × Int)) : Prop :=
  if a.cls.oomScoreAdj = 0 then after = before
  else after = some (false, a.cls.oomScoreAdj) ∨
    after = some (true, oldOomValue a.cls.oomScoreAdj)

theorem writeOom_step {old : Bool} {value : Int} (h : Ready k a err s) :
    Step k a err (writeOom k err old value) s fun _ s' =>
      ∃ calls, s' = { s with calls := calls, oom := some (old, value) } := by
  refine (Step.call h rfl (fun _ => rfl) (by trivial) rfl rfl rfl).imp ?_
  rintro - - rfl
  exact ⟨_, rfl⟩

theorem adjustOom_step (h : Ready k a err s) :
    Step k a err (adjustOom k a err) s fun _ s' =>
      ∃ calls oom, s' = { s with calls := calls, oom := oom } ∧ OomSet a s.oom oom := by
  refine .when h (fun hscore => ?_) fun hscore => ?_
  · refine .tryCall rfl (fun hc => ?_) fun n hc => ?_
    · have h' : Ready k a err (s.made (.openOom false)) :=
        h.made trivial fun m hm => by simp [hc] at hm
      refine (writeOom_step h').imp ?_
      rintro - - ⟨calls, rfl⟩
      refine ⟨_, _, rfl, ?_⟩
      rw [OomSet, if_neg hscore]
      exact .inl rfl
    · refine .ite (fun hn => ?_) fun hn => ?_
      · -- the older file is written to where the other one is not there
        have h' : Ready k a err (s.made (.openOom false)) := h.made trivial fun m hm => by
          rw [hc] at hm
          cases hm
          simp [Call.excused, hn]
        refine (Step.call h' rfl (fun _ => rfl) (by trivial) rfl rfl rfl).bind ?_
        rintro - - h'' rfl
        refine (writeOom_step h'').imp ?_
        rintro - - ⟨calls, rfl⟩
        refine ⟨_, _, rfl, ?_⟩
        rw [OomSet, if_neg hscore]
        exact .inr rfl
      · exact .of_sat (jobProcessErrorAbort_sat (s := s.made (.openOom false)) h.pipe
          (.failed (c := .openOom false) rfl h.passed trivial hc))
  · exact ⟨_, _, rfl, by rw [OomSet, if_pos (not_not.mp hscore)]⟩

theorem changeRoot_step (h : Ready k a err s) :
    Step k a err (changeRoot k a err) s fun _ s' =>
      ∃ calls, s' = { s with calls := calls, root := a.cls.chroot.or s.root } := by
  unfold changeRoot
  cases hroot : a.cls.chroot with
  | none => exact .pure h ⟨_, rfl⟩
  | some path =>
    refine (Step.call h rfl (fun _ => rfl) (by exact hroot) rfl rfl rfl).imp ?_
    rintro - - rfl
    exact ⟨_, rfl⟩

theorem changeDirectory_step (h : Ready k a err s) :
    Step k a err (changeDirectory k a err) s fun _ s' =>
      ∃ calls, s' = { s with
        calls := calls
        cwd := if a.cls.chdir.isSome ∨ a.userMode = false then
          some (s.root, a.cls.chdir.getD "/") else s.cwd } := by
  refine .when h (fun hdir => ?_) fun hdir => ?_
  · refine (Step.call h rfl (fun _ => rfl) (by rfl) rfl rfl rfl).imp ?_
    rintro - - rfl
    exact ⟨_, by rw [if_pos hdir]; rfl⟩
  · exact ⟨_, by rw [if_neg hdir]⟩

/-- The ids that the class names, in the databases below a root. -/
structure IdsOf (k : Kernel) (a : Args) (root : Option String) (ids : Ids) : Prop where
  /-- the user, whose group is taken where the class names none -/
  user : ∀ name, a.cls.setuid = some name → ∃ pwd, k.getpwnam root name = some pwd ∧
    ids.uid = pwd.uid ∧ ids.user = some pwd.name ∧ (a.cls.setgid = none → ids.gid = pwd.gid)
  noUser : a.cls.setuid = none → ids.uid = noId ∧ ids.user = none ∧
    (a.cls.setgid = none → ids.gid = noId)
  group : ∀ name, a.cls.setgid = some name → ∃ gid, k.getgrnam root name = some gid ∧
    ids.gid = gid ∧ ids.group = some gid
  noGroup : a.cls.setgid = none → ids.group = none

theorem lookUpUser_step (h : Ready k a err s) {name : String} (hname : a.cls.setuid = some name) :
    Step k a err (lookUpUser k err name) s fun pwd s' =>
      k.getpwnam s.root name = some pwd ∧ ∃ calls, s' = { s with calls := calls } := by
  refine (Step.call h rfl (fun _ => rfl) (by exact hname) rfl rfl rfl).bind ?_
  rintro - - h rfl
  refine .get ?_
  split
  · rename_i hfound
    exact .of_sat (jobProcessErrorAbort_sat h.pipe
      (.noUser hname (by simp [Child.made]) h.passed hfound))
  · rename_i pwd hfound
    exact .pure h ⟨hfound, _, rfl⟩

theorem lookUpGroup_step (h : Ready k a err s) {name : String}
    (hname : a.cls.setgid = some name) :
    Step k a err (lookUpGroup k err name) s fun gid s' =>
      k.getgrnam s.root name = some gid ∧ ∃ calls, s' = { s with calls := calls } := by
  refine (Step.call h rfl (fun _ => rfl) (by exact hname) rfl rfl rfl).bind ?_
  rintro - - h rfl
  refine .get ?_
  split
  · rename_i hfound
    exact .of_sat (jobProcessErrorAbort_sat h.pipe
      (.noGroup hname (by simp [Child.made]) h.passed hfound))
  · rename_i gid hfound
    exact .pure h ⟨hfound, _, rfl⟩

theorem lookUpIds_step (h : Ready k a err s) :
    Step k a err (lookUpIds k a err) s fun ids s' =>
      IdsOf k a s.root ids ∧ ∃ calls, s' = { s with calls := calls } := by
  unfold lookUpIds
  refine Step.bind (Q := fun ids s' => (∃ calls, s' = { s with calls := calls }) ∧
    ids.group = none ∧
    (a.cls.setuid = none → ids.uid = noId ∧ ids.user = none ∧ ids.gid = noId) ∧
    ∀ name, a.cls.setuid = some name → ∃ pwd, k.getpwnam s.root name = some pwd ∧
      ids.uid = pwd.uid ∧ ids.user = some pwd.name ∧ ids.gid = pwd.gid) ?_ ?_
  · unfold userIds
    cases hsetuid : a.cls.setuid with
    | none => exact .pure h ⟨⟨_, rfl⟩, rfl, fun _ => ⟨rfl, rfl, rfl⟩, nofun⟩
    | some name =>
      refine (lookUpUser_step h hsetuid).bind ?_
      rintro pwd - h ⟨hfound, calls, rfl⟩
      refine .pure h ⟨⟨_, rfl⟩, rfl, nofun, ?_⟩
      rintro _ ⟨⟩
      exact ⟨pwd, hfound, rfl, rfl, rfl⟩
  · rintro ids - h ⟨⟨calls, rfl⟩, hgroup, hnone, hsome⟩
    cases hsetgid : a.cls.setgid with
    | none =>
      refine .pure h ⟨⟨?_, ?_, ?_, fun _ => hgroup⟩, _, rfl⟩
      · intro name hname
        obtain ⟨pwd, hfound, huid, huser, hgid⟩ := hsome name hname
        exact ⟨pwd, hfound, huid, huser, fun _ => hgid⟩
      · intro hsetuid
        obtain ⟨huid, huser, hgid⟩ := hnone hsetuid
        exact ⟨huid, huser, fun _ => hgid⟩
      · rw [hsetgid]
        nofun
    | some name =>
      refine (lookUpGroup_step h hsetgid).bind ?_
      rintro gid - h ⟨hfound, calls, rfl⟩
      refine .pure h ⟨⟨?_, ?_, ?_, ?_⟩, _, rfl⟩
      · intro user huser
        obtain ⟨pwd, hpwd, huid, hname, -⟩ := hsome user huser
        exact ⟨pwd, hpwd, huid, hname, by rw [hsetgid]; nofun⟩
      · intro hsetuid
        obtain ⟨huid, huser, -⟩ := hnone hsetuid
        exact ⟨huid, huser, by rw [hsetgid]; nofun⟩
      · intro group hgroup
        rw [hsetgid] at hgroup
        cases hgroup
        exact ⟨gid, hfound, rfl, rfl⟩
      · rw [hsetgid]
        nofun

theorem giveScript_step (h : Ready k a err s) {script : Option Nat} (ids : Ids)
    (hscript : ∀ fd, script = some fd → s.fds.get fd ≠ none) :
    Step k a err (giveScript k err script ids) s fun _ s' =>
      ∃ calls, s' = { s with
        calls := calls
        scriptOwner := if script.isSome ∧ (ids.uid ≠ noId ∨ ids.gid ≠ noId) then
          some (ids.uid, ids.gid) else s.scriptOwner } := by
  unfold giveScript
  cases script with
  | none => exact .pure h ⟨_, rfl⟩
  | some fd =>
    refine .when h (fun hids => ?_) fun hids => ?_
    · refine .of_sat ((call_sat h ?_ (fun _ => rfl) (by trivial)).imp ?_)
      · rintro _ ⟨⟩
        exact hscript fd rfl
      · rintro ⟨-, s'⟩ ⟨hready, rfl⟩
        refine ⟨hready.of_same rfl rfl rfl, (s.made (.fchown fd ids.uid ids.gid)).calls, ?_⟩
        rw [if_pos ⟨rfl, hids⟩]
        rfl
    · exact ⟨_, by rw [if_neg fun hboth => hids hboth.2]⟩

theorem initGroups_step (h : Ready k a err s) (ids : Ids) :
    Step k a err (initGroups k err ids) s fun _ s' =>
      ∃ calls, s' = { s with
        calls := calls
        groups := if s.uid = 0 then
          some (ids.user.getD (k.userName s.root s.uid), ids.group.getD s.gid) else s.groups } := by
  refine .get (.when h (fun hroot => ?_) fun hroot => ?_)
  · refine Step.bind (Q := fun user s' => user = ids.user.getD (k.userName s.root s.uid) ∧
      ∃ calls, s' = { s with calls := calls }) ?_ ?_
    · unfold groupUser
      cases ids.user with
      | some user => exact .pure h ⟨rfl, _, rfl⟩
      | none =>
        refine .get ((Step.call h rfl (fun _ => rfl) (by trivial) rfl rfl rfl).bind ?_)
        rintro - - h rfl
        exact .pure h ⟨rfl, _, rfl⟩
    · rintro user - h ⟨rfl, calls, rfl⟩
      refine Step.bind (Q := fun group s' => group = ids.group.getD s.gid ∧
        ∃ calls, s' = { s with calls := calls }) ?_ ?_
      · unfold extraGroup
        cases ids.group with
        | some group => exact .pure h ⟨rfl, _, rfl⟩
        | none =>
          refine .get ((Step.call h rfl (fun _ => rfl) (by trivial) rfl rfl rfl).bind ?_)
          rintro - - h rfl
          exact .pure h ⟨rfl, _, rfl⟩
      · rintro group - h ⟨rfl, calls, rfl⟩
        refine (Step.call h rfl (fun _ => rfl) (by trivial) rfl rfl rfl).imp ?_
        rintro - - rfl
        exact ⟨_, by rw [if_pos hroot]; rfl⟩
  · exact ⟨_, by rw [if_neg hroot]⟩

theorem dropPrivileges_step (h : Ready k a err s) (ids : Ids) :
    Step k a err (dropPrivileges k err ids) s fun _ s' =>
      ∃ calls, s' = { s with
        calls := calls
        gid := if ids.gid ≠ noId then ids.gid else s.gid
        uid := if ids.uid ≠ noId then ids.uid else s.uid } := by
  refine Step.bind (Q := fun _ s' => ∃ calls, s' = { s with
    calls := calls, gid := if ids.gid ≠ noId then ids.gid else s.gid }) ?_ ?_
  · refine .when h (fun hgid => ?_) fun hgid => ⟨_, by rw [if_neg hgid]⟩
    refine (Step.call h rfl (fun _ => rfl) (by trivial) rfl rfl rfl).imp ?_
    rintro - - rfl
    exact ⟨_, by rw [if_pos hgid]; rfl⟩
  · rintro - - h ⟨calls, rfl⟩
    refine .when h (fun huid => ?_) fun huid => ⟨_, by rw [if_neg huid]⟩
    refine (Step.call h rfl (fun _ => rfl) (by trivial) rfl rfl rfl).imp ?_
    rintro - - rfl
    exact ⟨_, by rw [if_pos huid]; rfl⟩

/-! ## All of them -/

/-- A process runs with the settings of its class: `before` is what it has from init. -/
structure Configured (k : Kernel) (a : Args) (script : Option Nat) (before after : Child) :
    Prop where
  limits : after.limits = fun i => (a.cls.limits i).or (before.limits i)
  umask : after.umask = some a.cls.umask
  nice : after.nice = if a.cls.nice = -21 then before.nice else some a.cls.nice
  oom : OomSet a before.oom after.oom
  root : after.root = a.cls.chroot.or before.root
  cwd : after.cwd = if a.cls.chdir.isSome ∨ a.userMode = false then
    some (after.root, a.cls.chdir.getD "/") else before.cwd
  /-- the ids are looked up below the new root; an id of -1 counts as none -/
  ids : ∃ ids, IdsOf k a after.root ids ∧
    after.uid = (if ids.uid ≠ noId then ids.uid else before.uid) ∧
    after.gid = (if ids.gid ≠ noId then ids.gid else before.gid) ∧
    after.groups = (if before.uid = 0 then
      some (ids.user.getD (k.userName after.root before.uid), ids.group.getD before.gid)
      else before.groups) ∧
    after.scriptOwner = if script.isSome ∧ (ids.uid ≠ noId ∨ ids.gid ≠ noId) then
      some (ids.uid, ids.gid) else before.scriptOwner

/-- The groups of the class have been made, for a job and an instance of these names. -/
def GroupsMade (a : Args) (env : List String) (upstartJob upstartInstance : List Char)
    (cgroups : List (String × List Char)) : Prop :=
  List.Forall₂ (PathOf (cgroupEnv a.getenv env (upstartCgroup upstartJob upstartInstance)))
    (groupNames a.cls.cgroups) cgroups

theorem applySettings_step {p : Plumbing} {upstartJob upstartInstance : List Char}
    (h : Ready k a p.err s) (hscript : ∀ fd, p.script = some fd → s.fds.get fd ≠ none)
    (hm : Managed k a) (hn : Named p.env upstartJob upstartInstance) :
    Step k a p.err (applySettings k a p) s fun _ s' =>
      s' = { s with
        calls := s'.calls, limits := s'.limits, umask := s'.umask, nice := s'.nice, oom := s'.oom
        root := s'.root, cwd := s'.cwd, uid := s'.uid, gid := s'.gid, groups := s'.groups
        connected := s'.connected, cgroups := s'.cgroups, scriptOwner := s'.scriptOwner } ∧
      Configured k a p.script s s' ∧
      (a.cls.cgroups ≠ [] → s'.connected = true ∧
        GroupsMade a p.env upstartJob upstartInstance s'.cgroups) := by
  refine (limitResources_step h).bind ?_
  rintro - - h ⟨calls, rfl⟩
  refine (setPriority_step h).bind ?_
  rintro - - h ⟨calls, rfl⟩
  refine (adjustOom_step h).bind ?_
  rintro - - h ⟨calls, oom, rfl, hoom⟩
  refine (changeRoot_step h).bind ?_
  rintro - - h ⟨calls, rfl⟩
  refine (changeDirectory_step h).bind ?_
  rintro - - h ⟨calls, rfl⟩
  refine (lookUpIds_step h).bind ?_
  rintro ids - h ⟨hids, calls, rfl⟩
  refine (giveScript_step h ids hscript).bind ?_
  rintro - - h ⟨calls, rfl⟩
  refine (initGroups_step h ids).bind ?_
  rintro - - h ⟨calls, rfl⟩
  refine (makeGroups_step h hm hn ids).bind ?_
  rintro - - h ⟨calls, connected, cgroups, rfl, hgroups⟩
  refine (dropPrivileges_step h ids).imp ?_
  rintro - - ⟨calls, rfl⟩
  refine ⟨rfl, ⟨rfl, rfl, rfl, hoom, rfl, rfl, ids, hids, rfl, rfl, rfl, rfl⟩, hgroups⟩

end Startup.Spawn
