import Startup.Lib.Groups
import Startup.ParseJob.Effects

/-!
# The control groups of a class (`init/cgroup.c`)

`cgroup_add` merges what it is given into nested lists.  `cgroupsOf` says what the lists are
in the end: the controllers, the names of each and the keys of each name in the order in which
they come first, each key with its last value.

* `replaceSetting_eq`, `addToNames_of_mem`, `addToCgroups_of_mem`: the loops on lists
  without duplicates.
* `settingsOf_concat`, `namesOf_concat`: one more entry, at each level.
* `cgroupAdd_cgroupsOf`: `cgroup_add` keeps to `cgroupsOf`.
-/

namespace Startup.ParseJob

open Lib

/-! ## What the entries come to -/

/-- The name of the group that an entry is for. -/
def CGroupEntry.groupName (e : CGroupEntry) : String := e.name.getD "$UPSTART_CGROUP"

/-- The setting of an entry, if it has one. -/
def CGroupEntry.setting (e : CGroupEntry) : Option (String × Option String) :=
  e.key.map fun k => (k, e.value)

/-- A key with its last value. -/
def lastSetting (g : String × List (String × Option String)) : CGroupSetting :=
  ⟨g.1, g.2.getLast?.bind Prod.snd⟩

/-- The settings of the entries for a name. -/
def settingsOf (es : List CGroupEntry) : List CGroupSetting :=
  (groups Prod.fst (es.filterMap CGroupEntry.setting)).map lastSetting

def nameOf (g : String × List CGroupEntry) : CGroupName := ⟨g.1, none, settingsOf g.2⟩

/-- The names of the entries for a controller. -/
def namesOf (es : List CGroupEntry) : List CGroupName :=
  (groups CGroupEntry.groupName es).map nameOf

def controllerOf (g : String × List CGroupEntry) : CGroup := ⟨g.1, namesOf g.2⟩

/-- The control groups of the entries. -/
def cgroupsOf (es : List CGroupEntry) : List CGroup :=
  (groups CGroupEntry.controller es).map controllerOf

variable {β : Type} {gs : List (String × β)} {controller name k : String}
  {key value : Option String} {found foundName : Bool}

/-- Nothing changes where the key does not occur. -/
theorem map_ite_of_not_mem {γ : Type} (f g : String × β → γ) (h : k ∉ gs.map Prod.fst) :
    gs.map (fun b => if b.1 = k then f b else g b) = gs.map g := by
  apply List.map_congr_left
  intro b hb
  have hne : b.1 ≠ k := by
    intro heq
    exact h (heq ▸ List.mem_map_of_mem hb)
  rw [if_neg hne]

/-! ## Settings -/

theorem replaceSetting_eq {f : String × β → CGroupSetting} (hf : ∀ b, (f b).key = b.1)
    (hnodup : (gs.map Prod.fst).Nodup) :
    replaceSetting k value (gs.map f) =
      if k ∈ gs.map Prod.fst then
        some (gs.map fun b => if b.1 = k then { f b with value := value } else f b)
      else none := by
  induction gs with
  | nil => rfl
  | cons b gs ih =>
    rw [List.map_cons, List.nodup_cons] at hnodup
    rw [List.map_cons, replaceSetting]
    by_cases hb : b.1 = k
    · have hkey : (f b).key = k := (hf b).trans hb
      have hrest : k ∉ gs.map Prod.fst := hb ▸ hnodup.1
      have hmem : k ∈ (b :: gs).map Prod.fst := by simp [hb]
      rw [if_pos hkey, if_pos hmem, List.map_cons, if_pos hb, map_ite_of_not_mem _ _ hrest]
    · have hkey : (f b).key ≠ k := fun h => hb ((hf b).symm.trans h)
      rw [if_neg hkey, ih hnodup.2]
      by_cases hmem : k ∈ gs.map Prod.fst
      · have hmem' : k ∈ (b :: gs).map Prod.fst := List.mem_cons_of_mem _ hmem
        rw [if_pos hmem, if_pos hmem']
        simp [hb]
      · have hmem' : k ∉ (b :: gs).map Prod.fst := by simpa [Ne.symm hb] using hmem
        rw [if_neg hmem, if_neg hmem']
        rfl

/-- A setting is replaced or appended. -/
def addSetting (key value : Option String) (settings : List CGroupSetting) : List CGroupSetting :=
  match key with
  | none => settings
  | some k => (replaceSetting k value settings).getD (settings ++ [⟨k, value⟩])

theorem settingsOf_concat (es : List CGroupEntry) (e : CGroupEntry) :
    settingsOf (es ++ [e]) = addSetting e.key e.value (settingsOf es) := by
  unfold settingsOf addSetting
  rw [List.filterMap_append]
  cases hkey : e.key with
  | none => simp [CGroupEntry.setting, hkey]
  | some k =>
    have hlast : [e].filterMap CGroupEntry.setting = [(k, e.value)] := by
      simp [CGroupEntry.setting, hkey]
    rw [hlast, groups_concat]
    dsimp only
    rw [replaceSetting_eq (fun _ => rfl) (nodup_groups ..)]
    split_ifs with hmem
    · rw [List.map_map]
      apply List.map_congr_left
      intro g _
      simp only [Function.comp_apply]
      split_ifs with hg
      · simp [lastSetting]
      · rfl
    · simp [lastSetting]

/-! ## Names -/

/-- One name in the loop. -/
theorem addToNames_cons (cgname : CGroupName) (names : List CGroupName) :
    addToNames name key value found (cgname :: names) =
      if cgname.name = name then
        match key with
        | none => (cgname :: (addToNames name key value true names).1,
            (addToNames name key value true names).2)
        | some k =>
          match replaceSetting k value cgname.settings with
          | some settings => ({ cgname with settings := settings } :: names, true, true)
          | none =>
            ({ cgname with settings := cgname.settings ++ [⟨k, value⟩] } ::
              (addToNames name key value true names).1, (addToNames name key value true names).2)
      else (cgname :: (addToNames name key value found names).1,
        (addToNames name key value found names).2) := by
  cases key <;> rfl

theorem addToNames_of_not_mem {f : String × β → CGroupName} (hf : ∀ b, (f b).name = b.1)
    (h : name ∉ gs.map Prod.fst) :
    addToNames name key value found (gs.map f) = (gs.map f, found, false) := by
  induction gs with
  | nil => rfl
  | cons b gs ih =>
    rw [List.map_cons, List.mem_cons, not_or] at h
    have hname : (f b).name ≠ name := by simpa [hf] using Ne.symm h.1
    rw [List.map_cons, addToNames_cons, if_neg hname, ih h.2]

theorem addToNames_of_mem {f : String × β → CGroupName} (hf : ∀ b, (f b).name = b.1)
    (hnodup : (gs.map Prod.fst).Nodup) (h : name ∈ gs.map Prod.fst) :
    ∃ returned, addToNames name key value found (gs.map f) =
      (gs.map fun b => if b.1 = name then
        { f b with settings := addSetting key value (f b).settings } else f b, true, returned) := by
  induction gs with
  | nil => cases h
  | cons b gs ih =>
    rw [List.map_cons, List.nodup_cons] at hnodup
    rw [List.map_cons, addToNames_cons]
    by_cases hb : b.1 = name
    · have hname : (f b).name = name := (hf b).trans hb
      have hrest : name ∉ gs.map Prod.fst := hb ▸ hnodup.1
      rw [if_pos hname, List.map_cons, if_pos hb, map_ite_of_not_mem _ _ hrest]
      cases key with
      | none =>
        rw [addToNames_of_not_mem hf hrest]
        exact ⟨false, rfl⟩
      | some k =>
        dsimp only [addSetting]
        cases replaceSetting k value (f b).settings with
        | some settings => exact ⟨true, rfl⟩
        | none =>
          dsimp only
          rw [addToNames_of_not_mem hf hrest]
          exact ⟨false, rfl⟩
    · have hmem : name ∈ gs.map Prod.fst := by
        rcases List.mem_cons.mp h with heq | hmem
        · exact absurd heq.symm hb
        · exact hmem
      have hname : (f b).name ≠ name := fun h => hb ((hf b).symm.trans h)
      obtain ⟨returned, hrest⟩ := ih hnodup.2 hmem
      rw [if_neg hname, List.map_cons, if_neg hb, hrest]
      exact ⟨returned, rfl⟩

/-- The names of a controller to which one is added. -/
def addName (name : String) (key value : Option String) (names : List CGroupName) :
    List CGroupName :=
  match addToNames name key value false names with
  | (names, _, true) => names
  | (names, true, false) => names
  | (names, false, false) => names ++ [newCgroupName name key value]

theorem namesOf_concat (es : List CGroupEntry) (e : CGroupEntry) :
    namesOf (es ++ [e]) = addName e.groupName e.key e.value (namesOf es) := by
  unfold namesOf addName
  rw [groups_concat]
  split_ifs with hmem
  · obtain ⟨returned, hadd⟩ : ∃ returned, addToNames e.groupName e.key e.value false
        ((groups CGroupEntry.groupName es).map nameOf) = (_, true, returned) :=
      addToNames_of_mem (fun _ => rfl) (nodup_groups ..) hmem
    have hnames : ∀ names, (match ((names, true, returned) : List CGroupName × Bool × Bool) with
        | (names, _, true) => names
        | (names, true, false) => names
        | (names, false, false) => names ++ [newCgroupName e.groupName e.key e.value]) = names := by
      intro names
      cases returned <;> rfl
    rw [hadd, hnames, List.map_map]
    apply List.map_congr_left
    intro g _
    simp only [Function.comp_apply]
    split_ifs
    · simp [nameOf, settingsOf_concat]
    · rfl
  · rw [addToNames_of_not_mem (fun _ => rfl) hmem, List.map_append]
    have hnew : nameOf (e.groupName, [e]) = newCgroupName e.groupName e.key e.value := by
      have hsettings : settingsOf ([] ++ [e]) = addSetting e.key e.value (settingsOf []) :=
        settingsOf_concat [] e
      simp only [nameOf, newCgroupName, List.nil_append] at hsettings ⊢
      rw [hsettings]
      cases e.key <;> rfl
    rw [List.map_singleton, hnew]

/-! ## Controllers -/

theorem addToCgroups_of_not_mem {f : String × β → CGroup} (hf : ∀ b, (f b).controller = b.1)
    (h : controller ∉ gs.map Prod.fst) :
    addToCgroups controller name key value found foundName (gs.map f) =
      gs.map f ++ if found then [] else [⟨controller, [newCgroupName name key value]⟩] := by
  induction gs with
  | nil => rfl
  | cons b gs ih =>
    rw [List.map_cons, List.mem_cons, not_or] at h
    have hname : (f b).controller ≠ controller := by simpa [hf] using Ne.symm h.1
    rw [List.map_cons, addToCgroups, if_neg hname, ih h.2]
    rfl

theorem addToCgroups_of_mem {f : String × β → CGroup} (hf : ∀ b, (f b).controller = b.1)
    (hnodup : (gs.map Prod.fst).Nodup) (h : controller ∈ gs.map Prod.fst) :
    addToCgroups controller name key value false false (gs.map f) =
      gs.map fun b => if b.1 = controller then
        { f b with names := addName name key value (f b).names } else f b := by
  induction gs with
  | nil => cases h
  | cons b gs ih =>
    rw [List.map_cons, List.nodup_cons] at hnodup
    rw [List.map_cons, addToCgroups]
    by_cases hb : b.1 = controller
    · have hname : (f b).controller = controller := (hf b).trans hb
      have hrest : controller ∉ gs.map Prod.fst := hb ▸ hnodup.1
      rw [if_pos hname, List.map_cons, if_pos hb, map_ite_of_not_mem _ _ hrest]
      unfold addName
      obtain ⟨names, foundName, returned⟩ := addToNames name key value false (f b).names
      cases returned with
      | true => rfl
      | false =>
        cases foundName with
        | true =>
          dsimp only
          rw [addToCgroups_of_not_mem hf hrest]
          simp
        | false => rfl
    · have hmem : controller ∈ gs.map Prod.fst := by
        rcases List.mem_cons.mp h with heq | hmem
        · exact absurd heq.symm hb
        · exact hmem
      have hname : (f b).controller ≠ controller := fun h => hb ((hf b).symm.trans h)
      rw [if_neg hname, List.map_cons, if_neg hb, ih hnodup.2 hmem]

/-- `cgroup_add` adds an entry to those that the lists stand for. -/
theorem cgroupAdd_cgroupsOf (es : List CGroupEntry) (e : CGroupEntry) :
    cgroupAdd (cgroupsOf es) e.controller e.name e.key e.value = cgroupsOf (es ++ [e]) := by
  unfold cgroupAdd cgroupsOf
  rw [groups_concat]
  split_ifs with hmem
  · rw [addToCgroups_of_mem (fun _ => rfl) (nodup_groups ..) hmem, List.map_map]
    apply List.map_congr_left
    intro g _
    simp only [Function.comp_apply]
    split_ifs
    · simp [controllerOf, namesOf_concat, CGroupEntry.groupName]
    · rfl
  · rw [addToCgroups_of_not_mem (fun _ => rfl) hmem, List.map_append]
    have hnew : controllerOf (e.controller, [e]) =
        ⟨e.controller, [newCgroupName (e.name.getD "$UPSTART_CGROUP") e.key e.value]⟩ := by
      have hnames : namesOf ([] ++ [e]) = addName e.groupName e.key e.value (namesOf []) :=
        namesOf_concat [] e
      simp only [controllerOf, List.nil_append] at hnames ⊢
      rw [hnames]
      rfl
    rw [List.map_singleton, hnew]
    simp

end Startup.ParseJob
