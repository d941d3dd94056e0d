import Startup.ParseJob.CGroups

/-!
# A sequence of `cgroup_add` (`init/cgroup.c`)

What the calls leave in the lists of a class, by the entries that they were given.

* `cgroupAdds`: the calls, with the assertion that a value has a key;
* `Accumulates`: the levels of the lists, each in the order of first appearance;
* `cgroupAdds_accumulates`: every sequence of calls accumulates.
-/

namespace Startup.ParseJob

open Lib

/-- One call of `cgroup_add`. -/
def cgroupAddEntry (cgroups : List CGroup) (e : CGroupEntry) : Except Fault (List CGroup) := do
  nihAssert .cgroupAdd (e.value.isNone || e.key.isSome)
  .ok (cgroupAdd cgroups e.controller e.name e.key e.value)

/-- The calls, one after the other, on a class that has no control groups. -/
def cgroupAdds (es : List CGroupEntry) : Except Fault (List CGroup) :=
  es.foldlM cgroupAddEntry []

/-- The entries for a controller. -/
def entriesFor (es : List CGroupEntry) (controller : String) : List CGroupEntry :=
  es.filter fun e => e.controller = controller

/-- The entries for a name of a controller, where an omitted one stands for `$UPSTART_CGROUP`. -/
def entriesNamed (es : List CGroupEntry) (controller name : String) : List CGroupEntry :=
  (entriesFor es controller).filter fun e => e.groupName = name

/-- The values that the entries give to a key, the last one at the end. -/
def valuesOf (es : List CGroupEntry) (controller name key : String) : List (Option String) :=
  ((entriesNamed es controller name).filter fun e => e.key = some key).map CGroupEntry.value

/-- The lists have one entry for each controller, one for each name of it and one for each key of
that, in the order in which these come first, and the keys have their last values. -/
structure Accumulates (es : List CGroupEntry) (cgroups : List CGroup) : Prop where
  controllers : cgroups.map CGroup.controller = (es.map CGroupEntry.controller).eraseDups
  names : ∀ cgroup ∈ cgroups, cgroup.names.map CGroupName.name =
    ((entriesFor es cgroup.controller).map CGroupEntry.groupName).eraseDups
  keys : ∀ cgroup ∈ cgroups, ∀ name ∈ cgroup.names, name.settings.map CGroupSetting.key =
    ((entriesNamed es cgroup.controller name.name).filterMap CGroupEntry.key).eraseDups
  values : ∀ cgroup ∈ cgroups, ∀ name ∈ cgroup.names, ∀ setting ∈ name.settings,
    (valuesOf es cgroup.controller name.name setting.key).getLast? = some setting.value
  /-- the names are expanded later -/
  unexpanded : ∀ cgroup ∈ cgroups, ∀ name ∈ cgroup.names, name.expanded = none
  /-- nothing is there twice -/
  nodup : (cgroups.map CGroup.controller).Nodup ∧
    ∀ cgroup ∈ cgroups, (cgroup.names.map CGroupName.name).Nodup ∧
      ∀ name ∈ cgroup.names, (name.settings.map CGroupSetting.key).Nodup

variable {es : List CGroupEntry}

/-! ## The levels -/

theorem mem_cgroupsOf {cgroup : CGroup} (h : cgroup ∈ cgroupsOf es) :
    cgroup.names = namesOf (entriesFor es cgroup.controller) := by
  simp only [cgroupsOf, groups, List.map_map, List.mem_map, Function.comp_apply] at h
  obtain ⟨controller, -, rfl⟩ := h
  rfl

theorem mem_namesOf {name : CGroupName} (h : name ∈ namesOf es) :
    name.settings = settingsOf (es.filter fun e => e.groupName = name.name) ∧
      name.expanded = none := by
  simp only [namesOf, groups, List.map_map, List.mem_map, Function.comp_apply] at h
  obtain ⟨k, -, rfl⟩ := h
  exact ⟨rfl, rfl⟩

theorem settingsOf_keys (es : List CGroupEntry) :
    (settingsOf es).map CGroupSetting.key = (es.filterMap CGroupEntry.key).eraseDups := by
  have hkeys : (es.filterMap CGroupEntry.setting).map Prod.fst = es.filterMap CGroupEntry.key := by
    rw [List.map_filterMap]
    congr 1
    funext e
    unfold CGroupEntry.setting
    cases e.key <;> rfl
  have hfst : CGroupSetting.key ∘ lastSetting = Prod.fst := rfl
  rw [settingsOf, List.map_map, hfst, map_fst_groups, hkeys]

/-- The values that a key is given, among the settings. -/
theorem map_snd_settings (es : List CGroupEntry) (k : String) :
    ((es.filterMap CGroupEntry.setting).filter fun s => s.1 = k).map Prod.snd =
      (es.filter fun e => e.key = some k).map CGroupEntry.value := by
  induction es with
  | nil => rfl
  | cons e es ih =>
    unfold CGroupEntry.setting at ih ⊢
    rw [List.filterMap_cons, List.filter_cons]
    cases hkey : e.key with
    | none => simpa using ih
    | some k' =>
      by_cases hk : k' = k
      · simpa [hk] using ih
      · simpa [hk] using ih

/-- A key has the last value that it was given. -/
theorem mem_settingsOf {setting : CGroupSetting} (h : setting ∈ settingsOf es) :
    ((es.filter fun e => e.key = some setting.key).map CGroupEntry.value).getLast? =
      some setting.value := by
  simp only [settingsOf, groups, List.map_map, List.mem_map, Function.comp_apply] at h
  obtain ⟨k, hk, rfl⟩ := h
  rw [List.mem_eraseDups, List.mem_map] at hk
  obtain ⟨s, hs, rfl⟩ := hk
  have hmem : s ∈ (es.filterMap CGroupEntry.setting).filter fun t => t.1 = s.1 :=
    List.mem_filter.mpr ⟨hs, by simp⟩
  have hlast := List.getLast?_eq_some_getLast (List.ne_nil_of_mem hmem)
  generalize List.getLast _ _ = last at hlast
  have hvalue : (lastSetting (s.1, (es.filterMap CGroupEntry.setting).filter fun t =>
      t.1 = s.1)).value = last.2 := by
    rw [lastSetting, hlast]
    rfl
  show (List.map _ (es.filter fun e => e.key = some s.1)).getLast? = _
  rw [hvalue, ← map_snd_settings, List.getLast?_map, hlast]
  rfl

/-! ## The sequence -/

theorem cgroupsOf_accumulates (es : List CGroupEntry) : Accumulates es (cgroupsOf es) := by
  have hcontrollers : (cgroupsOf es).map CGroup.controller =
      (es.map CGroupEntry.controller).eraseDups := by
    have hfst : CGroup.controller ∘ controllerOf = Prod.fst := rfl
    rw [cgroupsOf, List.map_map, hfst, map_fst_groups]
  have hnames : ∀ fs : List CGroupEntry, (namesOf fs).map CGroupName.name =
      (fs.map CGroupEntry.groupName).eraseDups := by
    intro fs
    have hfst : CGroupName.name ∘ nameOf = Prod.fst := rfl
    rw [namesOf, List.map_map, hfst, map_fst_groups]
  have hname : ∀ cgroup ∈ cgroupsOf es, ∀ name ∈ cgroup.names,
      name.settings = settingsOf (entriesNamed es cgroup.controller name.name) ∧
        name.expanded = none := by
    intro cgroup hcgroup name hmem
    rw [mem_cgroupsOf hcgroup] at hmem
    exact mem_namesOf hmem
  constructor
  · exact hcontrollers
  · intro cgroup hcgroup
    rw [mem_cgroupsOf hcgroup, hnames]
  · intro cgroup hcgroup name hmem
    rw [(hname cgroup hcgroup name hmem).1, settingsOf_keys]
  · intro cgroup hcgroup name hmem setting hsetting
    rw [(hname cgroup hcgroup name hmem).1] at hsetting
    exact mem_settingsOf hsetting
  · intro cgroup hcgroup name hmem
    exact (hname cgroup hcgroup name hmem).2
  · rw [hcontrollers]
    refine ⟨nodup_eraseDups _, ?_⟩
    intro cgroup hcgroup
    constructor
    · rw [mem_cgroupsOf hcgroup, hnames]
      exact nodup_eraseDups _
    · intro name hmem
      rw [(hname cgroup hcgroup name hmem).1, settingsOf_keys]
      exact nodup_eraseDups _

/-- One more call. -/
theorem cgroupAddEntry_cgroupsOf {e : CGroupEntry} (he : e.value ≠ none → e.key ≠ none) :
    cgroupAddEntry (cgroupsOf es) e = .ok (cgroupsOf (es ++ [e])) := by
  have hkey : (e.value.isNone || e.key.isSome) = true := by
    cases hvalue : e.value with
    | none => rfl
    | some v =>
      obtain ⟨k, hk⟩ := Option.ne_none_iff_exists'.mp (he (by simp [hvalue]))
      rw [hk]
      rfl
  rw [cgroupAddEntry, nihAssert, hkey, cgroupAdd_cgroupsOf]
  rfl

/-- A sequence of calls that give a value with a key only leaves the lists of its entries. -/
theorem cgroupAdds_accumulates (es : List CGroupEntry)
    (hkeyed : ∀ e ∈ es, e.value ≠ none → e.key ≠ none) :
    ∃ cgroups, cgroupAdds es = .ok cgroups ∧ Accumulates es cgroups := by
  refine ⟨cgroupsOf es, ?_, cgroupsOf_accumulates es⟩
  induction es using List.reverseRecOn with
  | nil => rfl
  | append_singleton es e ih =>
    have hes := ih fun f hf => hkeyed f (List.mem_append_left _ hf)
    unfold cgroupAdds at hes ⊢
    rw [List.foldlM_append, hes]
    show ([e].foldlM cgroupAddEntry (cgroupsOf es)) = _
    rw [List.foldlM_cons, cgroupAddEntry_cgroupsOf (hkeyed e (by simp))]
    rfl

/-- A key that is given twice, and a name that is left out. -/
theorem cgroupAdds_accumulates_replaced :
    ∃ cgroups, cgroupAdds [⟨"memory", none, some "limit", some "1"⟩, ⟨"cpu", some "a", none, none⟩,
        ⟨"memory", some "$UPSTART_CGROUP", some "limit", some "2"⟩] = .ok cgroups ∧
      Accumulates [⟨"memory", none, some "limit", some "1"⟩, ⟨"cpu", some "a", none, none⟩,
        ⟨"memory", some "$UPSTART_CGROUP", some "limit", some "2"⟩] cgroups :=
  cgroupAdds_accumulates _ (by decide)

end Startup.ParseJob
