import Startup.Spawn.Steps

/-!
# The control groups of the child

* `setupNames_passed`: the calls of `cgroup_setup` went well, or the last one is the first that
  failed, or a name could not be expanded.
* `makeGroups_step`, `enterGroups_step`: the child is in the groups that its names stand for.
-/

namespace Startup.Spawn

open Lib Lib.Descriptors ParseJob

variable {k : Kernel} {a : Args} {err : Nat} {s : Child}

/-- The calls for one name: they went well, or the last one is the first that failed. -/
theorem makeCalls_passed {done : List CGroupCall} (calls : List CGroupCall)
    (h : Passed k a (s.calls ++ done.map .cgroup)) :
    let r := makeCalls (k.cgroupHost s) done calls
    (r.2 = true → Passed k a (s.calls ++ (done ++ r.1).map .cgroup)) ∧
      (r.2 = false → ∃ made c n, r.1 = made ++ [c] ∧
        Passed k a (s.calls ++ (done ++ made).map .cgroup) ∧
        k.fails (s.calls ++ (done ++ made).map .cgroup) (.cgroup c) = some n) := by
  induction calls generalizing done with
  | nil => exact ⟨fun _ => by simpa [makeCalls] using h, nofun⟩
  | cons c calls ih =>
    dsimp only
    rw [makeCalls]
    cases hc : k.fails (s.calls ++ done.map .cgroup) (.cgroup c) with
    | some n =>
      have hanswer : (k.cgroupHost s).answers done c = false := by simp [Kernel.cgroupHost, hc]
      rw [if_neg (by simp [hanswer])]
      refine ⟨by rintro ⟨⟩, fun _ => ⟨[], c, n, rfl, ?_, ?_⟩⟩
      · simpa using h
      · simpa using hc
    | none =>
      have hanswer : (k.cgroupHost s).answers done c = true := by simp [Kernel.cgroupHost, hc]
      rw [if_pos hanswer]
      have hnext : Passed k a (s.calls ++ (done ++ [c]).map .cgroup) := by
        rw [List.map_append, ← List.append_assoc]
        exact h.snoc trivial fun n hn => by simp [hc] at hn
      obtain ⟨hok, hfailed⟩ := ih hnext
      refine ⟨fun hr => ?_, fun hr => ?_⟩
      · have hpassed := hok hr
        rwa [List.append_assoc] at hpassed
      · obtain ⟨made, c', n, hmade, hpassed, hn⟩ := hfailed hr
        rw [List.append_assoc] at hpassed hn
        exact ⟨c :: made, c', n, congrArg (c :: ·) hmade, hpassed, hn⟩

/-- The path that is kept for a name is the one that the calls are made for. -/
theorem groupPath_kept (name : CGroupName) (path : List Char) :
    groupPath { name with
      expanded := if path = name.name.toList then none else some (String.ofList path) } = path := by
  unfold groupPath
  split
  · rename_i h
    exact h.symm
  · exact String.toList_ofList

/-- A group has the path that its name expands to. -/
def PathOf (env : List String) (p : String × CGroupName) (group : String × List Char) : Prop :=
  group.1 = p.1 ∧ ∃ expanded, environExpand p.2.name env = .ok expanded ∧
    group.2 = cgroupPath p.2.name.toList expanded.toList

/-- The names are set up; or a call failed, or a name could not be expanded. -/
theorem setupNames_passed (env : List String) (uid gid : Nat) {done : List CGroupCall}
    (names : List (String × CGroupName)) (h : Passed k a (s.calls ++ done.map .cgroup)) :
    let r := setupNames (k.cgroupHost s) env uid gid done names
    let made := r.1.flatMap CGroupStep.calls
    (r.2 = true → Passed k a (s.calls ++ (done ++ made).map .cgroup) ∧
      List.Forall₂ (PathOf env) names
        (r.1.map fun step => (step.controller, groupPath step.cgname))) ∧
    (r.2 = false → (∃ before c n, made = before ++ [c] ∧
        Passed k a (s.calls ++ (done ++ before).map .cgroup) ∧
        k.fails (s.calls ++ (done ++ before).map .cgroup) (.cgroup c) = some n) ∨
      (Passed k a (s.calls ++ (done ++ made).map .cgroup) ∧
        ∃ p ∈ names, ∃ e, environExpand p.2.name env = .error e)) := by
  induction names generalizing done with
  | nil => exact ⟨fun _ => ⟨by simpa [setupNames] using h, .nil⟩, nofun⟩
  | cons p names ih =>
    obtain ⟨controller, cgname⟩ := p
    dsimp only
    rw [setupNames]
    cases hexpand : environExpand cgname.name env with
    | error e =>
      exact ⟨by rintro ⟨⟩, fun _ => .inr ⟨by simpa using h, _, List.mem_cons_self, e, hexpand⟩⟩
    | ok expanded =>
      dsimp only
      obtain ⟨hok, hfailed⟩ := makeCalls_passed (callsFor (k.cgroupHost s) uid gid controller
        (cgroupPath cgname.name.toList expanded.toList) cgname.settings) h
      generalize makeCalls (k.cgroupHost s) done (callsFor (k.cgroupHost s) uid gid controller
        (cgroupPath cgname.name.toList expanded.toList) cgname.settings) = r at hok hfailed
      cases hr : r.2 with
      | false =>
        rw [if_neg (by simp)]
        obtain ⟨before, c, n, hmade, hpassed, hn⟩ := hfailed hr
        exact ⟨by rintro ⟨⟩, fun _ => .inl ⟨before, c, n, by simpa using hmade, hpassed, hn⟩⟩
      | true =>
        rw [if_pos rfl]
        obtain ⟨hall, hsome⟩ := ih (hok hr)
        dsimp only
        rw [List.flatMap_cons, List.map_cons]
        refine ⟨fun hrest => ?_, fun hrest => ?_⟩
        · obtain ⟨hpassed, hpaths⟩ := hall hrest
          rw [List.append_assoc] at hpassed
          exact ⟨hpassed, .cons ⟨rfl, expanded, hexpand, groupPath_kept _ _⟩ hpaths⟩
        · rcases hsome hrest with ⟨before, c, n, hmade, hpassed, hn⟩ | ⟨hpassed, p, hp, hname⟩
          · rw [List.append_assoc] at hpassed hn
            exact .inl ⟨r.1 ++ before, c, n, by rw [hmade, List.append_assoc], hpassed, hn⟩
          · rw [List.append_assoc] at hpassed
            exact .inr ⟨hpassed, p, List.mem_cons_of_mem _ hp, hname⟩

/-- The table of a process has the names of its job. -/
structure Named (env : List String) (upstartJob upstartInstance : List Char) : Prop where
  restorable : Restorable env
  job : environGetn env "UPSTART_JOB".toList = some upstartJob
  inst : environGetn env "UPSTART_INSTANCE".toList = some upstartInstance

/-- Another variable does not change the names. -/
theorem Named.set {env : List String} {upstartJob upstartInstance : List Char}
    (h : Named env upstartJob upstartInstance) (getenv : String → Option String) {str : String}
    (var : List Char) {value : List Char} (hstr : str.toList = var ++ '=' :: value)
    (hvar : '=' ∉ var) (hjob : "UPSTART_JOB".toList ≠ var)
    (hinst : "UPSTART_INSTANCE".toList ≠ var) :
    Named (environAdd getenv env true str) upstartJob upstartInstance := by
  have hadd := h.restorable.add getenv true str
  refine ⟨hadd, ?_, ?_⟩
  · rw [environGetn_restorable hadd (by decide), tableValue_set h.restorable getenv var hstr hvar,
      if_neg hjob, ← environGetn_restorable h.restorable (by decide)]
    exact h.job
  · rw [environGetn_restorable hadd (by decide), tableValue_set h.restorable getenv var hstr hvar,
      if_neg hinst, ← environGetn_restorable h.restorable (by decide)]
    exact h.inst

/-- The parent has made sure that control groups can be set up, where the class has any. -/
def Managed (k : Kernel) (a : Args) : Prop :=
  a.cls.cgroups ≠ [] → k.supportEnabled = true ∧ k.managerAvailable = true

variable {env : List String} {upstartJob upstartInstance : List Char}

/-- `cgroup_setup` gets as far as the names. -/
theorem cgroupSetup_names (hm : Managed k a) (hgroups : a.cls.cgroups ≠ [])
    (hn : Named env upstartJob upstartInstance) (uid gid : Nat) :
    cgroupSetup a.getenv (k.cgroupHost s) a.cls.cgroups env uid gid =
      .ok (setupNames (k.cgroupHost s) (cgroupEnv a.getenv env
        (upstartCgroup upstartJob upstartInstance)) uid gid [] (groupNames a.cls.cgroups)) := by
  obtain ⟨henabled, havailable⟩ := hm hgroups
  unfold cgroupSetup
  have hsupport : (k.cgroupHost s).supportEnabled = true := henabled
  have hmanager : (k.cgroupHost s).managerAvailable = true := havailable
  have hempty : a.cls.cgroups.isEmpty = false := by simpa using hgroups
  rw [if_neg (by simp [hsupport]), hmanager]
  simp only [Lib.check_true, bind, Except.bind, hempty, Bool.false_eq_true, if_false,
    (environAppend_self_iff a.getenv env).mpr hn.restorable, hn.job, hn.inst]

theorem setUpGroups_step (h : Ready k a err s) (hm : Managed k a) (hgroups : a.cls.cgroups ≠ [])
    (hn : Named env upstartJob upstartInstance) (uid gid : Nat) :
    Step k a err (setUpGroups k a env err uid gid) s fun _ s' =>
      ∃ calls cgroups, s' = { s with calls := calls, cgroups := cgroups } ∧
        List.Forall₂ (PathOf (cgroupEnv a.getenv env (upstartCgroup upstartJob upstartInstance)))
          (groupNames a.cls.cgroups) cgroups := by
  refine .of_sat ?_
  unfold setUpGroups
  rw [cgroupSetup_names hm hgroups hn]
  dsimp only
  have hstart : Passed k a (s.calls ++ ([] : List CGroupCall).map .cgroup) := by
    simpa using h.passed
  obtain ⟨hok, hfailed⟩ := setupNames_passed
    (cgroupEnv a.getenv env (upstartCgroup upstartJob upstartInstance)) uid gid
    (groupNames a.cls.cgroups) hstart
  generalize setupNames (k.cgroupHost s) (cgroupEnv a.getenv env
    (upstartCgroup upstartJob upstartInstance)) uid gid [] (groupNames a.cls.cgroups) = r
    at hok hfailed
  split
  · rename_i hr
    obtain ⟨hpassed, hpaths⟩ := hok hr
    rw [if_pos (hm hgroups).1]
    exact ⟨⟨by simpa using hpassed, h.pipe⟩, _, _, rfl, hpaths⟩
  · rename_i hr
    refine jobProcessErrorAbort_sat h.pipe ?_
    rcases hfailed (by simpa using hr) with
      ⟨before, c, n, hmade, hpassed, hn⟩ | ⟨hpassed, group, hgroup, e, hexpand⟩
    · have hcalls : s.calls ++ (r.1.flatMap CGroupStep.calls).map .cgroup =
          s.calls ++ before.map .cgroup ++ [.cgroup c] := by simp [hmade]
      exact .failed (c := .cgroup c) hcalls (by simpa using hpassed) trivial (by simpa using hn)
    · exact .badGroup hgroup (by simpa using hpassed) hexpand

/-- A loop of requests that change nothing else. -/
theorem clearGroups_step (h : Ready k a err s) :
    Step k a err (clearGroups k err) s fun _ s' => ∃ calls, s' = { s with calls := calls } := by
  refine .get (.when h (fun _ => ?_) fun _ => ⟨_, rfl⟩)
  refine Step.forM (I := fun _ s' => ∃ calls, s' = { s with calls := calls }) h ⟨_, rfl⟩ ?_
  rintro - group - s' - h' ⟨calls, rfl⟩
  refine .of_sat ((ask_sat h' rfl (fun _ => rfl) (by trivial)).imp ?_)
  rintro ⟨-, s'⟩ ⟨hready, rfl⟩
  exact ⟨hready, _, rfl⟩

/-- The groups are made, and there is a connection to their manager. -/
theorem makeGroups_step (h : Ready k a err s) (hm : Managed k a)
    (hn : Named env upstartJob upstartInstance) (ids : Ids) :
    Step k a err (makeGroups k a env err ids) s fun _ s' =>
      ∃ calls connected cgroups,
        s' = { s with calls := calls, connected := connected, cgroups := cgroups } ∧
        (a.cls.cgroups ≠ [] → connected = true ∧
          List.Forall₂
            (PathOf (cgroupEnv a.getenv env (upstartCgroup upstartJob upstartInstance)))
            (groupNames a.cls.cgroups) cgroups) := by
  refine .when h (fun hgroups => ?_) fun hnone => ⟨_, _, _, rfl, fun h => absurd h hnone⟩
  refine Step.bind (Q := fun _ s' => ∃ calls, s' = { s with calls := calls, connected := true })
    ?_ ?_
  · refine .of_sat ((ask_sat h rfl (fun _ => rfl) (by trivial)).imp ?_)
    rintro ⟨-, s'⟩ ⟨hready, rfl⟩
    exact ⟨hready.of_same rfl rfl rfl, (s.made .managerConnect).calls, rfl⟩
  · rintro - - h ⟨calls, rfl⟩
    refine .get ((setUpGroups_step h hm hgroups hn _ _).bind ?_)
    rintro - - h ⟨calls, cgroups, rfl, hpaths⟩
    refine .when h (fun _ => ?_) fun _ => ⟨_, _, _, rfl, fun _ => ⟨rfl, hpaths⟩⟩
    refine (clearGroups_step h).imp ?_
    rintro - - ⟨calls, rfl⟩
    exact ⟨_, _, _, rfl, fun _ => ⟨rfl, hpaths⟩⟩

/-- The child enters the groups, which needs a connection to their manager; only the security
process does not have one, and it crashes. -/
theorem enterGroups_step (h : Ready k a err s) (hm : Managed k a)
    (hconnected : a.process ≠ .security → a.cls.cgroups ≠ [] → s.connected = true) :
    Step k a err (enterGroups k a err) s fun _ s' =>
      (a.cls.cgroups ≠ [] → s.cgroups ≠ [] → s.connected = true) ∧
        ∃ calls, s' = { s with
          calls := calls
          members := if a.cls.cgroups = [] then s.members else s.members ++ s.cgroups } := by
  refine .when h (fun hgroups => ?_)
    fun hnone => ⟨fun h => absurd h hnone, _, by rw [if_pos (not_not.mp hnone)]⟩
  obtain ⟨henabled, havailable⟩ := hm hgroups
  refine Step.bind (Q := fun _ s' => s' = s) ?_ ?_
  · refine .of_sat ?_
    unfold assertChild
    rw [if_pos havailable]
    exact ⟨h, rfl⟩
  · rintro - s' - hs
    rw [hs]
    refine .get ?_
    rw [onlyIf, if_pos henabled]
    refine (Step.forM (I := fun done s' => (done ≠ [] → s.connected = true) ∧ ∃ calls,
      s' = { s with calls := calls, members := s.members ++ done })
      h ⟨fun h => absurd rfl h, s.calls, by simp⟩ ?_).imp ?_
    · rintro done group - - - h' ⟨-, calls, rfl⟩
      refine .get (Step.bind (Q := fun _ s' => s.connected = true ∧ s' = { s with
        calls := calls, members := s.members ++ done }) ?_ ?_)
      · refine .of_sat ?_
        unfold assertChild
        split
        · rename_i hconn
          exact ⟨h', hconn, rfl⟩
        · rename_i hconn
          refine ⟨?_, hgroups⟩
          by_contra hsecurity
          exact hconn (hconnected hsecurity hgroups)
      · rintro - - h'' ⟨hconn, rfl⟩
        refine .of_sat ((ask_sat h'' rfl (fun _ => rfl) (by trivial)).imp ?_)
        rintro ⟨-, s'⟩ ⟨hready, rfl⟩
        refine ⟨hready.of_same rfl rfl rfl, fun _ => hconn, calls ++ [.movePid group.1 group.2], ?_⟩
        show _ = _
        rw [← List.append_assoc]
        rfl
    · rintro - - ⟨hconn, calls, rfl⟩
      exact ⟨fun _ => hconn, calls, by rw [if_neg hgroups]⟩

end Startup.Spawn
