import Startup.Spawn.Arrangement
import Startup.Spawn.Settings

/-!
# The program that is executed

`childSetUp` ends in one of two ways: the program has been executed, in the environment and with
the settings that its class asks for; or the child has told its parent of the first call that
failed.

* `Executed`: what the executed program finds.
* `childSetUp_sat`: the two ways.
-/

namespace Startup.Spawn

open Lib Lib.Descriptors ParseJob

variable {k : Kernel} {a : Args} {err : Nat} {s : Child} {base : Table File} {own : Own}

/-- The child, right behind the fork. -/
def Child.forked (a : Args) (fds : Table File) (uid gid : Nat) : Child where
  calls := []
  fds := fds
  leader := false
  environ := []
  limits := fun _ => none
  umask := none
  nice := none
  oom := none
  root := none
  cwd := none
  uid := uid
  gid := gid
  groups := none
  profile := none
  signalsReset := false
  paused := false
  traced := false
  connected := false
  cgroups := (groupNames a.cls.cgroups).map fun group => (group.1, groupPath group.2)
  members := []
  scriptOwner := none

/-- Nothing has been set. -/
structure Untouched (before after : Child) : Prop where
  limits : after.limits = before.limits
  umask : after.umask = before.umask
  nice : after.nice = before.nice
  oom : after.oom = before.oom
  root : after.root = before.root
  cwd : after.cwd = before.cwd
  uid : after.uid = before.uid
  gid : after.gid = before.gid
  groups : after.groups = before.groups
  scriptOwner : after.scriptOwner = before.scriptOwner

/-- The process is as its class asks for. -/
structure AsAsked (k : Kernel) (a : Args) (env : List String)
    (upstartJob upstartInstance : List Char) (before after : Child) : Prop where
  profile : Profiled k a env before.profile after.profile
  /-- the security process runs as init does -/
  security : a.process = .security → Untouched before after
  settings : a.process ≠ .security →
    Configured k a (a.scriptFd.map fun _ => jobProcessScriptFd) before after
  /-- the process is in the control groups of its class -/
  members : a.process ≠ .security → a.cls.cgroups ≠ [] →
    GroupsMade a env upstartJob upstartInstance after.members
  noMembers : a.process = .security ∨ a.cls.cgroups = [] → after.members = []
  /-- a class with control groups does not get as far with its security process -/
  noGroups : a.process = .security → a.cls.cgroups ≠ [] → groupNames a.cls.cgroups = []

/-- The program has been executed, with the descriptors that it is to find, beside those in `view`
that init leaves to it. -/
structure Executed (k : Kernel) (a : Args) (view : Table File)
    (upstartJob upstartInstance : List Char) (before after : Child) : Prop where
  passed : Passed k a after.calls
  last : after.calls.getLast? = some (.exec a.argv)
  fds : ∃ file ready, IsStandard a file ∧ after.environ = readyEnv a ready ∧
    ready.isSome = a.readyfd.isSome ∧ ∀ n, after.fds.get n = programFds a view file ready n
  leader : after.leader = true
  signals : after.signalsReset = true
  paused : after.paused = a.cls.debug
  traced : after.traced = a.trace
  asked : AsAsked k a after.environ upstartJob upstartInstance before after

/-! ## The last steps -/

/-- A child that is debugged is paused, and it has closed the error pipe. -/
theorem resetSignals_step (h : Ready k a err s) (hrunning : s.paused = false)
    (hpipe : s.fds.get err = some ⟨.errorWriter, true⟩) :
    Step k a err (resetSignals a err) s fun _ s' => ∃ fds,
      s' = { s with signalsReset := true, paused := a.cls.debug, fds := fds } ∧
        fds.exec = s.fds.exec := by
  have hreset : Step k a err (modify fun s => { s with signalsReset := true }) s fun _ s' =>
      s' = { s with signalsReset := true } := .modify h rfl rfl rfl
  refine hreset.bind ?_
  rintro - _ h rfl
  refine .when h (fun hdebug => ?_) fun hdebug => ⟨s.fds, ?_, rfl⟩
  · refine .of_sat ⟨⟨h.passed, ?_⟩, s.fds.close err, ?_, s.fds.exec_close_cloexec hpipe rfl⟩
    · exact ⟨hdebug, Table.get_set_self ..⟩
    · rw [hdebug]
      rfl
  · rw [Bool.not_eq_true] at hdebug
    rw [hdebug, ← hrunning]

/-- The settings are made, but for the security process. -/
theorem onlySettings_step {p : Plumbing} {upstartJob upstartInstance : List Char}
    (h : Ready k a p.err s) (hscript : ∀ fd, p.script = some fd → s.fds.get fd ≠ none)
    (hm : Managed k a) (hn : Named p.env upstartJob upstartInstance) :
    Step k a p.err (onlyIf (a.process ≠ .security) (applySettings k a p)) s fun _ s' =>
      s' = { s with
        calls := s'.calls, limits := s'.limits, umask := s'.umask, nice := s'.nice, oom := s'.oom
        root := s'.root, cwd := s'.cwd, uid := s'.uid, gid := s'.gid, groups := s'.groups
        connected := s'.connected, cgroups := s'.cgroups, scriptOwner := s'.scriptOwner } ∧
      (a.process = .security → s' = s) ∧
      (a.process ≠ .security → Configured k a p.script s s' ∧
        (a.cls.cgroups ≠ [] → s'.connected = true ∧
          GroupsMade a p.env upstartJob upstartInstance s'.cgroups)) := by
  refine .when h (fun hother => ?_) fun hsecurity =>
    ⟨rfl, fun _ => rfl, fun h => absurd h hsecurity⟩
  refine (applySettings_step h hscript hm hn).imp ?_
  rintro - s' ⟨hs', hconfigured, hgroups⟩
  exact ⟨hs', fun h => absurd h hother, fun _ => ⟨hconfigured, hgroups⟩⟩

/-- The program is executed with what `exec` leaves open. -/
theorem execute_sat (h : Ready k a err s) (htraced : s.traced = false) :
    Sat (execute k a err s) (fun x => ∃ calls, Passed k a calls ∧
      calls.getLast? = some (.exec a.argv) ∧
      x.2 = { s with calls := calls, fds := s.fds.exec, traced := a.trace }) (Told k a) := by
  have htrace : Step k a err (onlyIf a.trace
      (call k err .ptrace 0 .traceMe fun s => { s with traced := true })) s fun _ s' =>
      s' = { s with calls := s'.calls, traced := a.trace } := by
    refine .when h (fun ht => ?_) fun ht => ?_
    · refine (Step.call h rfl (fun _ => rfl) (by exact ht) rfl rfl rfl).imp ?_
      rintro - - rfl
      rw [ht]
      rfl
    · rw [Bool.not_eq_true] at ht
      rw [ht, ← htraced]
  refine (htrace s rfl).bindState ?_
  rintro ⟨⟩ s₁ ⟨h₁, hs₁⟩
  refine (call_sat h₁ (by rintro _ ⟨⟩) (fun _ => rfl) (by rfl)).imp ?_
  rintro ⟨⟨⟩, s₂⟩ ⟨h₂, hs₂⟩
  dsimp only at hs₁ hs₂
  subst hs₂
  refine ⟨_, h₂.passed, ?_, ?_⟩
  · show (s₁.calls ++ [Call.exec a.argv]).getLast? = _
    simp
  · rw [hs₁]
    rfl

/-! ## The child -/

/-- The steps between the standard descriptors and the program. -/
theorem prepare_step {p : Plumbing} {upstartJob upstartInstance : List Char}
    (h : Ready k a p.err s) (hrunning : s.paused = false)
    (hpipe : s.fds.get p.err = some ⟨.errorWriter, true⟩) (henv : s.environ = p.env)
    (hscript : p.script = a.scriptFd.map fun _ => jobProcessScriptFd)
    (hopen : ∀ fd, p.script = some fd → s.fds.get fd ≠ none)
    (hmembers : s.members = []) (hconnected : s.connected = false)
    (hgroups : s.cgroups = (groupNames a.cls.cgroups).map fun group => (group.1, groupPath group.2))
    (hm : Managed k a) (hn : Named p.env upstartJob upstartInstance) :
    Step k a p.err (prepare k a p) s fun _ s' =>
      s'.fds.exec = s.fds.exec ∧ s'.leader = s.leader ∧ s'.environ = s.environ ∧
        s'.signalsReset = true ∧ s'.paused = a.cls.debug ∧ s'.traced = s.traced ∧
        AsAsked k a p.env upstartJob upstartInstance s s' := by
  refine (switchProfile_step h p.env henv).bind ?_
  rintro - - h ⟨calls, profile, rfl, hprofile⟩
  refine (onlySettings_step h hopen hm hn).bind ?_
  rintro - s₂ h ⟨hs₂, hsecurity, hsettings⟩
  have hpipe₂ : s₂.fds.get p.err = some ⟨.errorWriter, true⟩ := by rw [hs₂]; exact hpipe
  have hrunning₂ : s₂.paused = false := by rw [hs₂]; exact hrunning
  refine (resetSignals_step h hrunning₂ hpipe₂).bind ?_
  rintro - - h ⟨fds, rfl, hfds⟩
  refine (enterGroups_step h hm fun hother hgroups => ((hsettings hother).2 hgroups).1).imp ?_
  rintro - - ⟨hneeded, calls', rfl⟩
  -- the security process has no connection, so that there must not be a group to enter
  have hnone : a.process = .security → a.cls.cgroups ≠ [] → s.cgroups = [] := by
    intro hproc hgroups
    by_contra hne
    have hs := hsecurity hproc
    rw [hs] at hneeded
    have hconn : s.connected = true := hneeded hgroups hne
    rw [hconnected] at hconn
    cases hconn
  have hmembers₂ : s₂.members = [] := by rw [hs₂]; exact hmembers
  refine ⟨hfds.trans (by rw [hs₂]), by rw [hs₂], by rw [hs₂], rfl, rfl, by rw [hs₂], ?_, ?_, ?_, ?_,
    ?_, ?_⟩
  · have hprofile₂ : s₂.profile = profile := by rw [hs₂]
    exact hprofile₂ ▸ hprofile
  · intro hproc
    have hs := hsecurity hproc
    exact ⟨by rw [hs], by rw [hs], by rw [hs], by rw [hs], by rw [hs], by rw [hs], by rw [hs],
      by rw [hs], by rw [hs], by rw [hs]⟩
  · intro hother
    have hc := (hsettings hother).1
    rw [← hscript]
    exact ⟨hc.limits, hc.umask, hc.nice, hc.oom, hc.root, hc.cwd, hc.ids⟩
  · intro hother hgroups
    show GroupsMade a p.env upstartJob upstartInstance
      (if a.cls.cgroups = [] then s₂.members else s₂.members ++ s₂.cgroups)
    rw [if_neg hgroups, hmembers₂]
    exact ((hsettings hother).2 hgroups).2
  · intro hor
    show (if a.cls.cgroups = [] then s₂.members else s₂.members ++ s₂.cgroups) = []
    by_cases hgroups : a.cls.cgroups = []
    · rw [if_pos hgroups, hmembers₂]
    · have hproc := hor.resolve_right hgroups
      have hcgroups : s₂.cgroups = s.cgroups := by rw [hsecurity hproc]
      rw [if_neg hgroups, hmembers₂, hcgroups, hnone hproc hgroups]
      rfl
  · intro hproc hne
    have hnil := hnone hproc hne
    rw [hgroups] at hnil
    exact List.map_eq_nil_iff.mp hnil

/-- What the child does behind the fork: it executes the program, or it tells its parent why not. -/
theorem childSetUp_sat {uid gid : Nat} {upstartJob upstartInstance : List Char} {fds : Table File}
    (hh : Holds base fds own) (hg : Given a own) (hbase : ∀ n < 3, base.get n ≠ none)
    (hm : Managed k a)
    (hn : ∀ ready, Named (readyEnv a ready) upstartJob upstartInstance) :
    Sat (childSetUp k a (.forked a fds uid gid)) (fun x =>
      Executed k a base.exec upstartJob upstartInstance (.forked a fds uid gid) x.2)
      (Told k a) := by
  unfold childSetUp
  refine (arrangeDescriptors_sat .nil rfl hh hg hbase).bindState ?_
  rintro p s₁ ⟨h₁, harranged, calls₁, fds₁, hs₁⟩
  dsimp only at h₁ harranged hs₁
  obtain ⟨file, ready, hfile, henv, hready, hfds⟩ := harranged.found
  have hstep : Step k a p.err (prepare k a p) s₁ _ :=
    prepare_step h₁ (by rw [hs₁]; rfl) harranged.pipe harranged.env harranged.script
      harranged.scriptOpen (by rw [hs₁]; rfl) (by rw [hs₁]; rfl) (by rw [hs₁]; rfl) hm
      (henv ▸ hn ready)
  refine (hstep s₁ rfl).bindState ?_
  rintro ⟨⟩ s₂ ⟨h₂, hexec, hleader, henv₂, hsignals, hpaused, htraced, hasked⟩
  dsimp only at hexec hleader henv₂ hsignals hpaused htraced hasked
  refine (execute_sat h₂ (by rw [htraced, hs₁]; rfl)).imp ?_
  rintro ⟨⟨⟩, s₃⟩ ⟨calls₃, hpassed, hlast, hs₃⟩
  dsimp only at hs₃
  subst hs₃
  refine ⟨hpassed, hlast, ⟨file, ready, hfile, ?_, hready, ?_⟩, ?_, hsignals, hpaused, rfl, ?_⟩
  · exact henv₂.trans (harranged.env.trans henv)
  · rw [← hexec] at hfds
    exact hfds
  · exact hleader.trans (by rw [hs₁])
  · show AsAsked k a s₂.environ upstartJob upstartInstance _ _
    rw [henv₂, harranged.env]
    subst hs₁
    refine ⟨hasked.profile, fun hproc => ?_, fun hother => ?_, hasked.members, hasked.noMembers,
      hasked.noGroups⟩
    · have h := hasked.security hproc
      exact ⟨h.limits, h.umask, h.nice, h.oom, h.root, h.cwd, h.uid, h.gid, h.groups, h.scriptOwner⟩
    · have h := hasked.settings hother
      exact ⟨h.limits, h.umask, h.nice, h.oom, h.root, h.cwd, h.ids⟩

end Startup.Spawn
