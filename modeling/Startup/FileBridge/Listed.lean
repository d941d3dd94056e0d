import Startup.FileBridge.Watch

/-!
# Where the files of the bridge are listed

`Bridge.Placed` says that every watched directory exists and is watched by the kernel,
and that its files are at or below it by whole names.  `Bridge.Accounted` says that a
file of a job is listed once.

* `upstartJobAdded_sound`, `upstartJobRemoved_sound`: a job that comes or goes keeps
  both, and no assertion fails.
-/

namespace Startup.FileBridge

open Lib

/-! ## The invariant -/

/-- Something exists. -/
def Present (tree : List (List Text × Bool)) (c : List Text) : Prop := ∃ isDir, (c, isDir) ∈ tree

/-- A directory exists and is watched, and its files are at or below it. -/
structure WatchedDir.Placed (tree : List (List Text × Bool)) (dir : WatchedDir) : Prop where
  canonical : Canonical dir.path
  below : components dir.path ≠ []
  present : Present tree (components dir.path)
  watching : dir.watching = true
  files : ∀ file ∈ dir.files, Canonical file.path ∧ components dir.path <+: components file.path

namespace Bridge

/-- How often a file is listed. -/
def listed (b : Bridge) (id : FileId) : Nat :=
  b.watchedDirs.tally fun dir => (dir.files.map WatchedFile.id).count id

/-- How many jobs have a file. -/
def owned (b : Bridge) (id : FileId) : Nat := b.jobs.tally fun job => job.files.count id

/-- Every watched directory is where it should be. -/
def Placed (b : Bridge) : Prop := ∀ dir ∈ b.watchedDirs.items, dir.Placed b.tree

/-- A file of a job is listed once; `held` are those of a job that is being added. -/
structure Accounted (held : List FileId) (b : Bridge) : Prop where
  listed : ∀ id, b.listed id = b.owned id + held.count id
  once : ∀ id, b.owned id + held.count id ≤ 1
  given : ∀ id, b.lastFile < id → b.owned id + held.count id = 0

/-- The invariant of the bridge. -/
structure Sound (held : List FileId) (b : Bridge) : Prop where
  placed : b.Placed
  accounted : b.Accounted held

end Bridge

variable {x : Host} {b b' : Bridge} {dir dir' : WatchedDir} {held : List FileId} {path : Text}
  {c : List Text}

/-! ## Tables -/

theorem Bridge.Placed.get? (h : b.Placed) (hget : b.watchedDirs.get? path = some dir) :
    dir.Placed b.tree := h dir (Store.mem_of_get? hget)

theorem Bridge.Placed.putDir (h : b.Placed) (hdir : dir.Placed b.tree) : (b.putDir dir).Placed := by
  intro d hd
  rcases Store.mem_put.mp hd with rfl | ⟨hd, -⟩
  · exact hdir
  · exact h d hd

/-- What is listed changes by what is written to the table. -/
theorem listed_putDir (hget : b.watchedDirs.get? dir'.path = some dir) (id : FileId) :
    (b.putDir dir').listed id + (dir.files.map WatchedFile.id).count id =
      b.listed id + (dir'.files.map WatchedFile.id).count id :=
  Store.tally_put_of_get? (fun d : WatchedDir => (d.files.map WatchedFile.id).count id) hget

theorem listed_putDir_new (hget : b.watchedDirs.get? dir.path = none) (id : FileId) :
    (b.putDir dir).listed id = b.listed id + (dir.files.map WatchedFile.id).count id := by
  have htally := Store.tally_put (fun d : WatchedDir => (d.files.map WatchedFile.id).count id)
    b.watchedDirs dir
  rw [show key dir = dir.path from rfl, hget] at htally
  exact htally

/-! ## What exists -/

theorem stat_none {b : Bridge} (h : b.stat path = none) :
    components path ≠ [] ∧ ¬ Present b.tree (components path) := by
  unfold Bridge.stat at h
  split at h
  · cases h
  · rename_i hne
    refine ⟨hne, fun ⟨isDir, hmem⟩ => ?_⟩
    have hfind := List.find?_eq_none.mp (Option.map_eq_none_iff.mp h) _ hmem
    exact hfind (decide_eq_true rfl)

theorem stat_some {b : Bridge} (h : (b.stat path).isSome = true) :
    components path = [] ∨ Present b.tree (components path) := by
  by_cases hnil : components path = []
  · exact .inl hnil
  · rw [Bridge.stat, if_neg hnil, Option.isSome_map] at h
    obtain ⟨⟨c, isDir⟩, hfind⟩ := Option.isSome_iff_exists.mp h
    have heq : c = components path := by simpa using List.find?_some hfind
    exact .inr ⟨isDir, heq ▸ List.mem_of_find?_eq_some hfind⟩

/-! ## The first parent -/

theorem parents_root (n : Nat) : ∀ p ∈ parents n ['/'], p = ['/'] := by
  induction n with
  | zero => exact fun p hp => List.mem_singleton.mp hp
  | succ n ih =>
    intro p hp
    rcases List.mem_cons.mp hp with rfl | hp
    · rfl
    · exact ih p hp

/-- The paths that are tried are the root and the canonical texts above the path. -/
theorem parents_above {n : Nat} (hpath : Canonical path) (hne : components path ≠ []) :
    ∀ p ∈ parents n path, p = ['/'] ∨
      Canonical p ∧ components p ≠ [] ∧ components p <+: components path := by
  induction n generalizing path with
  | zero =>
    intro p hp
    rw [List.mem_singleton.mp hp]
    exact .inr ⟨hpath, hne, List.prefix_refl _⟩
  | succ n ih =>
    intro p hp
    rcases List.mem_cons.mp hp with rfl | hp
    · exact .inr ⟨hpath, hne, List.prefix_refl _⟩
    · rcases hpath.dirname hne with ⟨-, hroot⟩ | ⟨hne', hcanonical, hdrop⟩
      · rw [hroot] at hp
        exact .inl (parents_root n p hp)
      · refine (ih hcanonical (hdrop ▸ hne') p hp).imp_right fun ⟨hp, hpne, habove⟩ => ?_
        exact ⟨hp, hpne, habove.trans (hdrop ▸ List.dropLast_prefix _)⟩

/-- The root is tried at last. -/
theorem root_mem_parents {n : Nat} (hpath : Canonical path) (hne : components path ≠ [])
    (hn : (components path).length ≤ n) : ['/'] ∈ parents n path := by
  induction n generalizing path with
  | zero => exact absurd (List.length_eq_zero_iff.mp (Nat.le_zero.mp hn)) hne
  | succ n ih =>
    refine List.mem_cons_of_mem _ ?_
    rcases hpath.dirname hne with ⟨-, hroot⟩ | ⟨hne', hcanonical, hdrop⟩
    · rw [hroot]
      cases n <;> exact List.mem_cons_self
    · refine ih hcanonical (hdrop ▸ hne') ?_
      rw [hdrop, List.length_dropLast]
      omega

theorem length_le_render (hc : IsPath c) : c.length ≤ (render c).length := by
  induction c with
  | nil => exact le_refl _
  | cons n c ih =>
    have hle := ih fun m hm => hc m (List.mem_cons_of_mem n hm)
    rw [render_cons, List.length_cons, List.length_cons, List.length_append]
    omega

/-- `find_first_parent` finds a path that exists, at or above the given one. -/
theorem findFirstParent_sat (h : b.Placed) (hpath : Canonical path)
    (hne : components path ≠ []) :
    Sat (findFirstParent b path) (fun r => ∃ p, r = some p ∧ (p = ['/'] ∨
      Canonical p ∧ components p ≠ [] ∧ components p <+: components path ∧
        Present b.tree (components p))) (fun _ => False) := by
  have hslash : path.head? = some '/' := by
    rw [← hpath.2]
    cases hc : components path with
    | nil => exact absurd hc hne
    | cons n c => rfl
  have hroot : ['/'] ∈ parents path.length path := by
    refine root_mem_parents hpath hne ?_
    have hle := length_le_render hpath.1
    rw [hpath.2] at hle
    exact hle
  unfold findFirstParent nihAssert
  rw [hslash]
  show Sat (Except.ok _) _ _
  cases hfind : (parents path.length path).find? fun current =>
      (b.watchedDirs.get? current).isSome || (b.stat current).isSome with
  | none =>
    have hnone := List.find?_eq_none.mp hfind _ hroot
    have hexists : (b.stat ['/']).isSome = true := by
      rw [Bridge.stat, if_pos (by decide)]
      rfl
    exact absurd (Bool.or_eq_true_iff.mpr (.inr hexists)) hnone
  | some p =>
    refine ⟨p, rfl, ?_⟩
    refine (parents_above hpath hne p (List.mem_of_find?_eq_some hfind)).imp_right
      fun ⟨hp, hpne, habove⟩ => ⟨hp, hpne, habove, ?_⟩
    have htried : ((b.watchedDirs.get? p).isSome || (b.stat p).isSome) = true :=
      List.find?_some (p := fun current => (b.watchedDirs.get? current).isSome ||
        (b.stat current).isSome) hfind
    rcases Bool.or_eq_true_iff.mp htried with hwatched | hstat
    · obtain ⟨dir, hget⟩ := Option.isSome_iff_exists.mp hwatched
      have hpresent := (h.get? hget).present
      rwa [show dir.path = p from Store.key_of_get? hget] at hpresent
    · exact (stat_some hstat).resolve_left hpne

/-! ## A file of a job -/

/-- A new directory is put into the table. -/
theorem watchedDirNew_sat (hget : b.watchedDirs.get? path = none) :
    Sat (watchedDirNew x b path) (fun r => ∀ s, r = some s →
      1 < path.length ∧ s = (b.putDir ⟨path, [], true⟩, ⟨path, [], true⟩)) (fun _ => False) := by
  unfold watchedDirNew nihAssert
  rw [hget]
  show Sat (if _ then _ else _) _ _
  split
  · exact fun s hs => by cases hs
  · rename_i hlength
    split
    · rintro s ⟨⟩
      exact ⟨Nat.lt_of_not_le hlength, rfl⟩
    · exact fun s hs => by cases hs

/-- The file is listed in a directory, and the job has it. -/
theorem Bridge.Sound.listFile {file : WatchedFile} (h : b.Sound held)
    (hget : b.watchedDirs.get? dir.path = some dir) (hfile : Canonical file.path)
    (habove : components dir.path <+: components file.path)
    (hfresh : b.owned file.id + held.count file.id = 0) (hgiven : file.id ≤ b.lastFile) :
    (b.putDir { dir with files := dir.files ++ [file] }).Sound (held ++ [file.id]) := by
  have hdir := h.placed.get? hget
  have hcount : ∀ id, (held ++ [file.id]).count id = held.count id + [file.id].count id :=
    fun id => List.count_append
  refine ⟨h.placed.putDir ⟨hdir.canonical, hdir.below, hdir.present, hdir.watching,
    fun f hf => ?_⟩, fun id => ?_, fun id => ?_, fun id hid => ?_⟩
  · rcases List.mem_append.mp hf with hf | hf
    · exact hdir.files f hf
    · rw [List.mem_singleton.mp hf]
      exact ⟨hfile, habove⟩
  · have hlisted := @listed_putDir b dir { dir with files := dir.files ++ [file] } hget id
    have hold := h.accounted.listed id
    rw [List.map_append, List.count_append] at hlisted
    show _ = b.owned id + _
    rw [hcount]
    have hone : ([file].map WatchedFile.id).count id = [file.id].count id := rfl
    omega
  · show b.owned id + _ ≤ 1
    have honce := h.accounted.once id
    rw [hcount, List.count_singleton]
    by_cases hid : file.id = id
    · subst hid
      rw [if_pos (beq_self_eq_true _)]
      omega
    · rw [if_neg (by simpa using hid)]
      omega
  · show b.owned id + _ = 0
    have hzero := h.accounted.given id hid
    have hne : file.id ≠ id := fun heq => absurd (heq ▸ hgiven) (Nat.not_le_of_lt hid)
    rw [hcount, List.count_singleton, if_neg (by simpa using hne)]
    omega

/-- `ensure_watched` lists the file, or leaves it to nobody. -/
theorem ensureWatched_sat {job : Job} {file : WatchedFile} (h : b.Sound job.files)
    (hfile : Canonical file.path) (hne : components file.path ≠ [])
    (hfresh : b.owned file.id + job.files.count file.id = 0) (hgiven : file.id ≤ b.lastFile) :
    Sat (ensureWatched x b job file) (fun r => r.1.Sound r.2.files ∧ r.1.jobs = b.jobs ∧
      r.1.tree = b.tree ∧ r.1.lastFile = b.lastFile ∧ r.2.path = job.path)
      (fun _ => False) := by
  have hpath : Sat (pathToWatch b file) (fun r => ∃ p, r = some p ∧ (p = ['/'] ∨
      Canonical p ∧ components p ≠ [] ∧ components p <+: components file.path ∧
        Present b.tree (components p))) (fun _ => False) := by
    unfold pathToWatch
    split
    · rename_i hstat
      have hpresent := (stat_some (Bool.and_eq_true_iff.mp hstat).2).resolve_left hne
      exact ⟨_, rfl, .inr ⟨hfile, hne, List.prefix_refl _, hpresent⟩⟩
    · exact findFirstParent_sat h.placed hfile hne
  unfold ensureWatched
  rw [sat_bind]
  refine hpath.imp ?_
  rintro _ ⟨p, rfl, hp⟩
  dsimp only
  rw [sat_bind, lookupDir]
  cases hget : b.watchedDirs.get? p with
  | some dir =>
    have hkey : dir.path = p := Store.key_of_get? hget
    subst hkey
    -- the root is not in the table
    have habove : components dir.path <+: components file.path := by
      rcases hp with hroot | ⟨-, -, habove, -⟩
      · exact absurd (by rw [hroot]; decide) (h.placed.get? hget).below
      · exact habove
    exact ⟨h.listFile hget hfile habove hfresh hgiven, rfl, rfl, rfl, rfl⟩
  | none =>
    refine (watchedDirNew_sat hget).imp fun r hr => ?_
    cases r with
    | none => exact ⟨h, rfl, rfl, rfl, rfl⟩
    | some s =>
      obtain ⟨hlength, rfl⟩ := hr s rfl
      obtain ⟨hcanonical, hpne, habove, hpresent⟩ := hp.resolve_left fun hroot => by
        rw [hroot] at hlength
        exact absurd hlength (lt_irrefl 1)
      have hnew : (b.putDir ⟨p, [], true⟩).Sound job.files := by
        refine ⟨h.placed.putDir ⟨hcanonical, hpne, hpresent, rfl, fun _ hf => by cases hf⟩,
          fun id => ?_, h.accounted.once, h.accounted.given⟩
        rw [listed_putDir_new hget]
        exact h.accounted.listed id
      exact ⟨hnew.listFile Store.get?_put_self hfile habove hfresh hgiven, rfl, rfl, rfl, rfl⟩

/-! ## Jobs -/

/-- The path of a file is written canonically; that of a directory ends in a slash. -/
def FileInfo.Canonical (info : FileInfo) : Prop :=
  ∃ c, IsPath c ∧ (info.path = render c ∨ info.path = render c ++ ['/'])

theorem watchedFileNew_some {id : FileId} {info : FileInfo} {file : WatchedFile}
    (hinfo : info.Canonical) (h : watchedFileNew id info = some file) :
    file.id = id ∧ Canonical file.path ∧ components file.path ≠ [] := by
  obtain ⟨c, hc, hpath⟩ := hinfo
  unfold watchedFileNew at h
  split at h
  · cases h
  · rename_i hlength
    cases h
    have htext : (if info.path.getLast? = some '/' then info.path.dropLast else info.path) =
        render c := by
      rcases hpath with hpath | hpath
      · rw [hpath, if_neg (getLast?_render hc)]
      · rw [hpath, if_pos List.getLast?_concat, List.dropLast_concat]
    have hne : c ≠ [] := by
      rintro rfl
      rcases hpath with hpath | hpath <;> rw [hpath] at hlength <;> exact hlength (by decide)
    refine ⟨rfl, ?_⟩
    simp only [decide_eq_true_eq]
    rw [htext, components_render hc]
    exact ⟨canonical_render hc, hne⟩

/-- A file is added to the job that is being added. -/
theorem jobAddFile_sat {s : Bridge × Job} {info : FileInfo} (h : s.1.Sound s.2.files)
    (hinfo : info.Canonical) :
    Sat (jobAddFile x s info) (fun s' => s'.1.Sound s'.2.files ∧ s'.1.jobs = s.1.jobs ∧
      s'.1.tree = s.1.tree ∧ s'.2.path = s.2.path) (fun _ => False) := by
  unfold jobAddFile
  cases hfile : watchedFileNew (s.1.lastFile + 1) info with
  | none => exact ⟨h, rfl, rfl, rfl⟩
  | some file =>
    obtain ⟨hid, hcanonical, hne⟩ := watchedFileNew_some hinfo hfile
    have hnext : Bridge.Sound s.2.files { s.1 with
        lastFile := file.id, emitted := s.1.emitted ++ existing x s.1 file } := by
      refine ⟨h.placed, h.accounted.listed, h.accounted.once, fun id hgt => ?_⟩
      refine h.accounted.given id (Nat.lt_of_succ_lt ?_)
      rw [← Nat.succ_eq_add_one, ← hid] at *
      exact hgt
    have hfresh : s.1.owned file.id + s.2.files.count file.id = 0 :=
      h.accounted.given file.id (hid ▸ Nat.lt_succ_self _)
    exact (ensureWatched_sat hnext hcanonical hne hfresh (le_refl _)).imp
      fun _ ⟨hs, hjobs, htree, _, hpath⟩ => ⟨hs, hjobs, htree, hpath⟩

/-- The files of a job that goes are listed nowhere any more. -/
theorem jobDestroy_sound {job : Job} (h : b.Sound []) (hget : b.jobs.get? job.path = some job) :
    (jobDestroy b job).Sound [] := by
  have howned : ∀ id, (jobDestroy b job).owned id + job.files.count id = b.owned id := by
    intro id
    have htally := Store.tally_erase (fun j : Job => j.files.count id) b.jobs job.path
    rw [hget] at htally
    exact htally
  have hlisted : ∀ id, (jobDestroy b job).listed id =
      if id ∈ job.files then 0 else b.listed id := by
    intro id
    have hfilter : ∀ files : List WatchedFile,
        ((files.filter fun file => decide (file.id ∉ job.files)).map WatchedFile.id).count id =
          if id ∈ job.files then 0 else (files.map WatchedFile.id).count id := by
      intro files
      have hmap : (files.filter fun file => decide (file.id ∉ job.files)).map WatchedFile.id =
          (files.map WatchedFile.id).filter fun id => decide (id ∉ job.files) := by
        rw [List.filter_map]
        rfl
      rw [hmap]
      split
      · rename_i hid
        refine List.count_eq_zero.mpr fun hmem => ?_
        exact of_decide_eq_true (List.mem_filter.mp hmem).2 hid
      · rename_i hid
        exact List.count_filter (decide_eq_true hid)
    have hmapped : (b.watchedDirs.map (WatchedDir.without job.files) fun _ => rfl).tally
        (fun dir => (dir.files.map WatchedFile.id).count id) = b.watchedDirs.tally fun dir =>
          ((dir.without job.files).files.map WatchedFile.id).count id := Store.tally_map _
    refine hmapped.trans ?_
    split
    · rename_i hid
      refine Store.tally_eq_zero.mpr fun dir _ => ?_
      exact (hfilter dir.files).trans (if_pos hid)
    · rename_i hid
      exact Store.tally_congr fun dir _ => (hfilter dir.files).trans (if_neg hid)
  have hcount := h.accounted.listed
  refine ⟨fun dir hdir => ?_, fun id => ?_, fun id => ?_, fun id hid => ?_⟩
  · have hold : ∃ old ∈ b.watchedDirs.items, old.without job.files = dir := List.mem_map.mp hdir
    obtain ⟨old, hold, rfl⟩ := hold
    have hp := h.placed old hold
    exact ⟨hp.canonical, hp.below, hp.present, hp.watching, fun f hf =>
      hp.files f (List.mem_filter.mp hf).1⟩
  · have hone := h.accounted.once id
    have hsame := hcount id
    have hjob := howned id
    rw [hlisted]
    rw [List.count_nil] at hone hsame ⊢
    split
    · rename_i hmem
      have hpos := List.count_pos_iff.mpr hmem
      omega
    · rename_i hmem
      have hzero := List.count_eq_zero.mpr hmem
      omega
  · have hone := h.accounted.once id
    have hjob := howned id
    omega
  · have hzero := h.accounted.given id hid
    have hjob := howned id
    omega

theorem upstartJobRemoved_sound (h : b.Sound []) :
    (upstartJobRemoved b path).Sound [] ∧ (upstartJobRemoved b path).jobs.get? path = none ∧
      (upstartJobRemoved b path).tree = b.tree := by
  unfold upstartJobRemoved
  cases hget : b.jobs.get? path with
  | none => exact ⟨h, hget, rfl⟩
  | some job =>
    have hkey : job.path = path := Store.key_of_get? hget
    subst hkey
    exact ⟨jobDestroy_sound h hget, Store.get?_erase_self, rfl⟩

/-- A job whose files are named canonically is added without a fault. -/
theorem upstartJobAdded_sat {infos : List FileInfo} (h : b.Sound [])
    (hinfos : ∀ info ∈ infos, info.Canonical) :
    Sat (upstartJobAdded x b path infos) (fun b' => b'.Sound [] ∧ b'.tree = b.tree)
      (fun _ => False) := by
  obtain ⟨hremoved, hnone, htree⟩ := @upstartJobRemoved_sound b path h
  unfold upstartJobAdded
  dsimp only
  rw [sat_bind]
  have hfold : Sat (infos.foldlM (jobAddFile x) (upstartJobRemoved b path, ⟨path, []⟩))
      (fun s => s.1.Sound s.2.files ∧ s.1.jobs = (upstartJobRemoved b path).jobs ∧
        s.1.tree = b.tree ∧ s.2.path = path) (fun _ => False) := by
    refine foldlM_sat ⟨hremoved, rfl, htree, rfl⟩ ?_
    rintro s ⟨hs, hjobs, htree', hpath⟩ info hinfo
    exact (jobAddFile_sat hs (hinfos info hinfo)).imp fun s' ⟨hs', hjobs', htree'', hpath'⟩ =>
      ⟨hs', hjobs'.trans hjobs, htree''.trans htree', hpath'.trans hpath⟩
  refine hfold.imp ?_
  rintro ⟨b', job⟩ ⟨hs, hjobs, htree', hpath⟩
  dsimp only at hs hjobs htree' hpath ⊢
  split
  · rename_i hempty
    rw [List.isEmpty_iff.mp hempty] at hs
    exact ⟨hs, htree'⟩
  · have howned : ∀ id, Bridge.owned { b' with jobs := b'.jobs.put job } id =
        b'.owned id + job.files.count id := by
      intro id
      have htally := Store.tally_put (fun j : Job => j.files.count id) b'.jobs job
      rw [show key job = path from hpath, hjobs, hnone, ← hjobs] at htally
      exact htally
    have hjob : ∀ id, ([] : List FileId).count id = 0 := fun id => List.count_nil
    refine ⟨⟨hs.placed, fun id => ?_, fun id => ?_, fun id hid => ?_⟩, htree'⟩
    · rw [howned, hjob]
      exact hs.accounted.listed id
    · rw [howned, hjob]
      exact hs.accounted.once id
    · rw [howned, hjob]
      exact hs.accounted.given id hid

end Startup.FileBridge
