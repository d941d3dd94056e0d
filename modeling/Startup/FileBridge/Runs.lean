import Startup.FileBridge.Listed
import Startup.Lib.Run

/-!
# Runs of the file bridge

Jobs come and go, and files and directories are created, modified and deleted, in any
order; after each change of the file system its watches are notified.

`reached_watches` says that in the runs whose inputs are all guarded each file of a job is
listed in one directory, which is at or above it and exists, and that no step fails an
assertion.  `Guarded` leaves out what goes wrong: `create_handler` takes a path that
only begins like that of the new directory for one below it, `delete_handler` uses the
directory that it has freed, and does not forget a directory that is deleted.
-/

namespace Startup.FileBridge

open Lib

/-! ## Inputs -/

/-- What can happen to the bridge. -/
inductive BridgeInput where
  | jobAdded (path : Text) (infos : List FileInfo)
  | jobRemoved (path : Text)
  | tree (input : TreeInput)

/-- The step that an input makes the bridge take. -/
def bridgeStep (x : Host) (b : Bridge) : BridgeInput → Except Fault Bridge
  | .jobAdded path infos => upstartJobAdded x b path infos
  | .jobRemoved path => .ok (upstartJobRemoved b path)
  | .tree input => treeStep x b input

/-- What the file system allows. -/
def TreeEnabled (b : Bridge) : TreeInput → Prop
  | .created c _ => c ≠ [] ∧ IsPath c ∧ b.stat (render c.dropLast) = some true ∧
      b.stat (render c) = none
  | .modified c => c ≠ [] ∧ IsPath c ∧ b.stat (render c) = some false
  | .deleted c => c ≠ [] ∧ IsPath c ∧ (b.stat (render c)).isSome = true ∧
      ∀ node ∈ b.tree, node.1.dropLast ≠ c

/-- The inputs that the bridge can receive; `job_add_file` makes every path absolute. -/
def BridgeEnabled (b : Bridge) : BridgeInput → Prop
  | .jobAdded _ infos => ∀ info ∈ infos, info.path.head? = some '/'
  | .jobRemoved _ => True
  | .tree input => TreeEnabled b input

/-- The files of jobs are named canonically; the path of a new directory is not the mere
beginning of another one that is listed above it, and the directory can be watched; no watched
directory is deleted, and nothing from whose path that of a listed file goes on, unless it is
the file and the job asks for deletions. -/
def Guarded (x : Host) (b : Bridge) : BridgeInput → Prop
  | .jobAdded _ infos => ∀ info ∈ infos, info.Canonical
  | .jobRemoved _ => True
  | .tree (.created c isDir) => ∀ dir ∈ b.watchedDirs.items, components dir.path = c.dropLast →
      ∀ file ∈ dir.files, createMoves dir (render c) isDir file = true →
        c <+: components file.path ∧ x.watchable (render c) = true
  | .tree (.modified _) => True
  | .tree (.deleted c) => ∀ dir ∈ b.watchedDirs.items, components dir.path ≠ c ∧
      (components dir.path = c.dropLast →
        ∀ file ∈ dir.files, deleteMoves (render c) file = false)

/-- The bridge has just been started. -/
structure Bridge.Initial (b : Bridge) : Prop where
  jobs : b.jobs.items = []
  watchedDirs : b.watchedDirs.items = []

/-- The states of the bridge in the runs whose inputs all meet a condition. -/
abbrev BridgeReached (C : Host → Bridge → BridgeInput → Prop) : Bridge → Prop :=
  Reach Bridge.Initial (fun b (i : Host × BridgeInput) => BridgeEnabled b i.2 ∧ C i.1 b i.2)
    fun b i => bridgeStep i.1 b i.2

variable {x : Host} {b b' : Bridge} {dir : WatchedDir} {file : WatchedFile} {path : Text}
  {c : List Text} {e : FileEvent}

/-! ## Reports -/

/-- An event names a file. -/
def WatchedFile.Names (file : WatchedFile) (e : FileEvent) : Prop :=
  e.path = file.path ∨ e.path = file.originalPath ∨
    ∃ glob, file.glob = some glob ∧ e.path = file.path ++ '/' :: glob

/-- An event names a file that is at the path, or is the directory that is watched, or is a
pattern that the path matches. -/
def Reports (x : Host) (dir path : Text) (file : WatchedFile) (e : FileEvent) : Prop :=
  file.Names e ∧ (file.path = path ∨ file.dir = true ∧ file.path = dir ∨
    ∃ glob, file.glob = some glob ∧ x.fnmatch (file.path ++ '/' :: glob) path = true)

theorem globEvent_reports {op : FileOp} {glob : Text} (hglob : file.glob = some glob)
    (he : e ∈ globEvent x op file glob path) : Reports x dir.path path file e := by
  unfold globEvent at he
  dsimp only at he
  split at he
  · rename_i hmatch
    rw [List.mem_singleton.mp he]
    exact ⟨.inr (.inr ⟨glob, hglob, rfl⟩),
      .inr (.inr ⟨glob, hglob, (Bool.and_eq_true_iff.mp hmatch).1⟩)⟩
  · cases he

theorem createEvents_reports (he : e ∈ createEvents x dir path file) :
    Reports x dir.path path file e := by
  unfold createEvents at he
  split at he
  · rename_i hdir
    split at he
    · rename_i hself
      split at he
      · rw [List.mem_singleton.mp he]
        exact ⟨.inr (.inl rfl), .inr (.inl ⟨hdir, hself⟩)⟩
      · cases he
    · split at he
      · rename_i hpath
        rw [List.mem_singleton.mp he]
        exact ⟨.inr (.inl rfl), .inl hpath⟩
      · cases he
  · split at he
    · rename_i glob hglob
      exact globEvent_reports hglob he
    · split at he
      · rename_i hpath
        rw [List.mem_singleton.mp he]
        exact ⟨.inl rfl, .inl hpath.1⟩
      · cases he

theorem modifyEvents_reports (he : e ∈ modifyEvents x dir path file) :
    Reports x dir.path path file e := by
  unfold modifyEvents at he
  split at he
  · cases he
  · split at he
    · rename_i hdir
      split at he
      · rename_i hself
        rw [List.mem_singleton.mp he]
        exact ⟨.inr (.inl rfl), .inr (.inl ⟨hdir, hself⟩)⟩
      · cases he
    · split at he
      · rename_i glob hglob
        exact globEvent_reports hglob he
      · split at he
        · rename_i hpath
          rw [List.mem_singleton.mp he]
          exact ⟨.inr (.inl rfl), .inl hpath⟩
        · cases he

theorem deleteEvents_reports (he : e ∈ deleteEvents x dir path file) :
    Reports x dir.path path file e := by
  unfold deleteEvents at he
  split at he
  · rename_i hdir
    split at he
    · rename_i hpath
      rw [List.mem_singleton.mp he]
      exact ⟨.inr (.inl rfl), .inl hpath⟩
    · split at he
      · rename_i hself
        rw [List.mem_singleton.mp he]
        exact ⟨.inr (.inl rfl), .inr (.inl ⟨hdir, hself.1⟩)⟩
      · cases he
  · split at he
    · rename_i glob hglob
      exact globEvent_reports hglob he
    · split at he
      · rename_i hpath
        rw [List.mem_singleton.mp he]
        exact ⟨.inr (.inl rfl), .inl hpath.1⟩
      · cases he

/-! ## What a handler does to the other files -/

/-- Files that are not at or below the path stay where they are, and every event names a
file at the path, its directory, or a pattern that it matches. -/
structure Handled (x : Host) (c : List Text) (b b' : Bridge) : Prop where
  kept : ∀ dir ∈ b.watchedDirs.items, ∀ file ∈ dir.files, ¬ c <+: components file.path →
    ∃ dir' ∈ b'.watchedDirs.items, dir'.path = dir.path ∧ file ∈ dir'.files
  reported : ∃ new, b'.emitted = b.emitted ++ new ∧ ∀ e ∈ new, ∃ dir ∈ b.watchedDirs.items,
    ∃ file ∈ dir.files, Reports x (render c.dropLast) (render c) file e

theorem Handled.refl (x : Host) (c : List Text) (b : Bridge) : Handled x c b b :=
  ⟨fun dir hdir file hfile _ => ⟨dir, hdir, rfl, hfile⟩,
    [], (List.append_nil _).symm, fun _ he => by cases he⟩

/-- A handler first emits its events. -/
theorem Handled.trans {b₁ : Bridge} (h : Handled x c b b₁) (hdirs : b₁.watchedDirs = b.watchedDirs)
    (h' : Handled x c b₁ b') : Handled x c b b' := by
  obtain ⟨new, hnew, hreports⟩ := h.reported
  obtain ⟨new', hnew', hreports'⟩ := h'.reported
  refine ⟨fun dir hdir => h'.kept dir (hdirs ▸ hdir), new ++ new', ?_, fun e he => ?_⟩
  · rw [hnew', hnew, List.append_assoc]
  · rcases List.mem_append.mp he with he | he
    · exact hreports e he
    · exact hdirs ▸ hreports' e he

/-- The events of a handler are emitted once. -/
theorem handleEvents_emitted (b : Bridge) (events : List FileEvent) :
    ∃ new, (b.handleEvents events).emitted = b.emitted ++ new ∧ ∀ e ∈ new, e ∈ events := by
  refine ⟨_, rfl, ?_⟩
  have hfold : ∀ (events handled : List FileEvent) (e : FileEvent),
      e ∈ events.foldl (fun handled event =>
        if event ∈ handled then handled else handled ++ [event]) handled →
      e ∈ handled ∨ e ∈ events := by
    intro events
    induction events with
    | nil => exact fun handled e he => .inl he
    | cons event events ih =>
      intro handled e he
      rcases ih _ e he with he | he
      · dsimp only at he
        split at he
        · exact .inl he
        · rcases List.mem_append.mp he with he | he
          · exact .inl he
          · exact .inr (List.mem_singleton.mp he ▸ List.mem_cons_self)
      · exact .inr (List.mem_cons_of_mem _ he)
  intro e he
  exact (hfold events [] e he).resolve_left List.not_mem_nil

theorem Bridge.Sound.handleEvents {held : List FileId} (h : b.Sound held)
    (events : List FileEvent) : (b.handleEvents events).Sound held :=
  ⟨h.placed, h.accounted.listed, h.accounted.once, h.accounted.given⟩

/-- A handler has emitted the events of its directory. -/
theorem handled_events {events : WatchedFile → List FileEvent}
    (hdir : dir ∈ b.watchedDirs.items) (hpath : dir.path = render c.dropLast)
    (hevents : ∀ file e, e ∈ events file → Reports x dir.path (render c) file e) :
    Handled x c b (b.handleEvents (dir.files.flatMap events)) := by
  refine ⟨fun d hd file hfile _ => ⟨d, hd, rfl, hfile⟩, ?_⟩
  obtain ⟨new, hnew, hmem⟩ := handleEvents_emitted b (dir.files.flatMap events)
  refine ⟨new, hnew, fun e he => ?_⟩
  obtain ⟨file, hfile, hefile⟩ := List.mem_flatMap.mp (hmem e he)
  exact ⟨dir, hdir, file, hfile, hpath ▸ hevents file e hefile⟩

/-! ## The creation of a directory -/

/-- The directory has lost some files to a new one. -/
theorem moveFiles_sound {left new : WatchedDir} (h : b.Sound [])
    (hget : b.watchedDirs.get? left.path = some dir)
    (hfresh : b.watchedDirs.get? new.path = none)
    (hleft : left.Placed b.tree) (hnew : new.Placed b.tree)
    (hcount : ∀ id, (left.files.map WatchedFile.id).count id +
      (new.files.map WatchedFile.id).count id = (dir.files.map WatchedFile.id).count id) :
    ((b.putDir left).putDir new).Sound [] := by
  have hne : new.path ≠ left.path := by
    intro heq
    rw [heq, hget] at hfresh
    cases hfresh
  have hfresh' : (b.putDir left).watchedDirs.get? new.path = none :=
    (Store.get?_put_ne hne).trans hfresh
  refine ⟨(h.placed.putDir hleft).putDir hnew, fun id => ?_, h.accounted.once, h.accounted.given⟩
  have hfirst := listed_putDir hget id
  have hsecond := listed_putDir_new hfresh' id
  have hmoved := hcount id
  have hlisted := h.accounted.listed id
  show ((b.putDir left).putDir new).listed id = b.owned id + _
  omega

/-- A directory in which no file is listed is freed. -/
theorem eraseDir_sound (h : b.Sound []) (hget : b.watchedDirs.get? path = some dir)
    (hempty : dir.files = []) :
    Bridge.Sound [] { b with watchedDirs := b.watchedDirs.erase path } := by
  refine ⟨fun d hd => h.placed d (Store.mem_erase.mp hd).1, fun id => ?_, h.accounted.once,
    h.accounted.given⟩
  have htally := Store.tally_erase
    (fun d : WatchedDir => (d.files.map WatchedFile.id).count id) b.watchedDirs path
  rw [hget, Option.map_some, Option.getD_some, hempty] at htally
  exact htally.trans (h.accounted.listed id)

/-- The files of a directory are those that are moved and those that are left. -/
theorem count_partition (p : WatchedFile → Bool) (files : List WatchedFile) (id : FileId) :
    ((files.filter fun file => !p file).map WatchedFile.id).count id +
      ((files.filter p).map WatchedFile.id).count id = (files.map WatchedFile.id).count id := by
  induction files with
  | nil => rfl
  | cons file files ih =>
    cases hp : p file <;>
      simp only [List.filter_cons, hp, Bool.not_true, Bool.not_false, if_true,
        Bool.false_eq_true, if_false, List.map_cons, List.count_cons] <;> omega

/-- A path is its directory and its last name. -/
theorem render_dropLast (hne : c ≠ []) :
    render c = render c.dropLast ++ '/' :: c.getLastD [] := by
  obtain ⟨d, n, rfl⟩ := List.eq_nil_or_concat' c |>.resolve_left hne
  rw [render_snoc, List.dropLast_concat]
  simp

/-- A path that can be watched is longer than that of the root. -/
theorem one_lt_length_render (hc : IsPath c) (hne : c ≠ []) : 1 < (render c).length := by
  cases c with
  | nil => exact absurd rfl hne
  | cons n c =>
    have hn := List.length_pos_iff.mpr (hc n List.mem_cons_self).1
    rw [render_cons, List.length_cons, List.length_append]
    omega

theorem isPrefixOf_render (hne : c ≠ []) : (render c.dropLast).isPrefixOf (render c) = true := by
  rw [List.isPrefixOf_iff_prefix, render_dropLast hne]
  exact List.prefix_append _ _

theorem putDir_putDir {d d' : WatchedDir} (h : d.path = d'.path) :
    (b.putDir d).putDir d' = b.putDir d' := by
  show ({ b with watchedDirs := (b.watchedDirs.put d).put d' } : Bridge) = _
  rw [Store.put_put h]
  rfl

/-- The files that are not moved stay where they are. -/
theorem moveFiles_kept {left new : WatchedDir} (hget : b.watchedDirs.get? left.path = some dir)
    (hfresh : b.watchedDirs.get? new.path = none)
    (hleft : ∀ file ∈ dir.files, ¬ c <+: components file.path → file ∈ left.files) :
    ∀ d ∈ b.watchedDirs.items, ∀ file ∈ d.files, ¬ c <+: components file.path →
      ∃ d' ∈ ((b.putDir left).putDir new).watchedDirs.items,
        d'.path = d.path ∧ file ∈ d'.files := by
  intro d hd file hfile hbelow
  have hne : d.path ≠ new.path := fun heq => Store.get?_eq_none.mp hfresh d hd heq
  by_cases hpath : d.path = left.path
  · have heq : d = dir := by
      have hsame : b.watchedDirs.get? left.path = some d := hpath ▸ Store.get?_of_mem hd
      exact Option.some.inj (hsame.symm.trans hget)
    refine ⟨left, Store.mem_put.mpr (.inr ⟨Store.mem_put.mpr (.inl rfl), ?_⟩), hpath.symm,
      hleft file (heq ▸ hfile) hbelow⟩
    exact fun heq' => hne (hpath.trans heq')
  · exact ⟨d, Store.mem_put.mpr (.inr ⟨Store.mem_put.mpr (.inr ⟨hd, hpath⟩), hne⟩), rfl, hfile⟩

/-- A new directory can be watched. -/
theorem watchedDirNew_eq (hget : b.watchedDirs.get? path = none) (hlength : 1 < path.length)
    (hwatch : x.watchable path = true) :
    watchedDirNew x b path = .ok (some (b.putDir ⟨path, [], true⟩, ⟨path, [], true⟩)) := by
  unfold watchedDirNew nihAssert
  rw [hget]
  show (if path.length ≤ 1 then _ else _) = _
  rw [if_neg (Nat.not_le_of_lt hlength), if_pos hwatch]

/-- The files that are moved are listed in the new directory, and the old one is freed when
none is left. -/
theorem moveFiles_sat {left : WatchedDir} {entries : List WatchedFile} (h : b.Sound [])
    (hget : b.watchedDirs.get? left.path = some dir) (hc : IsPath c) (hne : c ≠ [])
    (hfresh : b.watchedDirs.get? (render c) = none) (hleft : left.Placed b.tree)
    (hnew : WatchedDir.Placed b.tree ⟨render c, entries, true⟩)
    (hwatch : x.watchable (render c) = true)
    (hcount : ∀ id, (left.files.map WatchedFile.id).count id +
      (entries.map WatchedFile.id).count id = (dir.files.map WatchedFile.id).count id)
    (hstay : ∀ file ∈ dir.files, ¬ c <+: components file.path → file ∈ left.files) :
    Sat (moveFiles x b left entries (render c)) (fun b' => b'.Sound [] ∧ Handled x c b b')
      (fun _ => False) := by
  have hother : render c ≠ left.path := by
    intro heq
    rw [heq, hget] at hfresh
    cases hfresh
  have hfresh' : (b.putDir left).watchedDirs.get? (render c) = none :=
    (Store.get?_put_ne hother).trans hfresh
  have hput : ((b.putDir left).putDir ⟨render c, [], true⟩).putDir ⟨render c, entries, true⟩ =
      (b.putDir left).putDir ⟨render c, entries, true⟩ := putDir_putDir (by rfl)
  have hmoved := moveFiles_sound h hget hfresh hleft hnew hcount
  have hkept := @moveFiles_kept b dir c left ⟨render c, entries, true⟩ hget hfresh hstay
  have hgetLeft : ((b.putDir left).putDir ⟨render c, entries, true⟩).watchedDirs.get? left.path =
      some left := (Store.get?_put_ne hother.symm).trans Store.get?_put_self
  unfold moveFiles
  rw [watchedDirNew_eq hfresh' (one_lt_length_render hc hne) hwatch, sat_bind, sat_ok]
  dsimp only
  rw [hput]
  split
  · rename_i hempty
    have hnil := List.isEmpty_iff.mp hempty
    refine ⟨eraseDir_sound hmoved hgetLeft hnil, fun d hd file hfile hbelow => ?_,
      (Handled.refl x c b).reported⟩
    obtain ⟨d', hd', hpath, hfile'⟩ := hkept d hd file hfile hbelow
    refine ⟨d', Store.mem_erase.mpr ⟨hd', fun heq => ?_⟩, hpath, hfile'⟩
    -- nothing is left in the directory that is freed
    have hsame : ((b.putDir left).putDir ⟨render c, entries, true⟩).watchedDirs.get? left.path =
        some d' := heq ▸ Store.get?_of_mem hd'
    rw [hgetLeft] at hsame
    cases hsame
    rw [hnil] at hfile'
    cases hfile'
  · exact ⟨hmoved, hkept, (Handled.refl x c b).reported⟩

/-- `create_handler` moves files to the directory that has been created when they are at or
below it. -/
theorem createHandler_sat {isDir : Bool} (h : b.Sound [])
    (hget : b.watchedDirs.get? dir.path = some dir) (hc : IsPath c) (hne : c ≠ [])
    (hdir : components dir.path = c.dropLast) (hpresent : Present b.tree c)
    (hfresh : b.watchedDirs.get? (render c) = none)
    (hguard : ∀ file ∈ dir.files, createMoves dir (render c) isDir file = true →
      c <+: components file.path ∧ x.watchable (render c) = true) :
    Sat (createHandler x b dir (render c) isDir) (fun b' => b'.Sound [] ∧ Handled x c b b')
      (fun _ => False) := by
  have hplaced := h.placed.get? hget
  have hpath : dir.path = render c.dropLast := by rw [← hdir, hplaced.canonical.2]
  have hbegins : dir.path.isPrefixOf (render c) = true := hpath ▸ isPrefixOf_render hne
  have hevents : Handled x c b (b.handleEvents (dir.files.flatMap
      (createEvents x dir (render c)))) :=
    handled_events (Store.mem_of_get? hget) hpath fun _ _ => createEvents_reports
  have hsound := h.handleEvents (dir.files.flatMap (createEvents x dir (render c)))
  unfold createHandler nihAssert
  dsimp only
  rw [skipSlashes_render hc, hbegins, check_true, List.partition_eq_filter_filter]
  show Sat (if _ then _ else _) _ _
  split
  · exact ⟨hsound, hevents⟩
  · rename_i hmoves
    -- some file is moved, so that the directory can be watched
    obtain ⟨file, hfile⟩ := List.exists_mem_of_ne_nil _ fun hnil =>
      hmoves (List.isEmpty_iff.mpr hnil)
    obtain ⟨hmem, hmove⟩ := List.mem_filter.mp hfile
    have hcomponents := components_render hc
    have hleft : WatchedDir.Placed b.tree
        { dir with files := dir.files.filter (not ∘ createMoves dir (render c) isDir) } :=
      ⟨hplaced.canonical, hplaced.below, hplaced.present, hplaced.watching,
        fun f hf => hplaced.files f (List.mem_filter.mp hf).1⟩
    have hnew : WatchedDir.Placed b.tree
        ⟨render c, dir.files.filter (createMoves dir (render c) isDir), true⟩ := by
      refine ⟨canonical_render hc, hcomponents.symm ▸ hne, hcomponents.symm ▸ hpresent, rfl,
        fun f hf => ?_⟩
      obtain ⟨hf, hfmove⟩ := List.mem_filter.mp hf
      exact ⟨(hplaced.files f hf).1, hcomponents.symm ▸ (hguard f hf hfmove).1⟩
    have hstay : ∀ f ∈ dir.files, ¬ c <+: components f.path →
        f ∈ dir.files.filter (not ∘ createMoves dir (render c) isDir) := by
      intro f hf hbelow
      refine List.mem_filter.mpr ⟨hf, ?_⟩
      cases hm : createMoves dir (render c) isDir f with
      | true => exact absurd (hguard f hf hm).1 hbelow
      | false => simp [hm]
    have hmoved := @moveFiles_sat x _ dir c
      { dir with files := dir.files.filter (not ∘ createMoves dir (render c) isDir) }
      (dir.files.filter (createMoves dir (render c) isDir)) hsound hget hc hne hfresh hleft hnew
      (hguard file hmem hmove).2 (count_partition _ dir.files) hstay
    exact hmoved.imp fun b' ⟨hs, hh⟩ => ⟨hs, hevents.trans rfl hh⟩

/-! ## The other handlers -/

theorem modifyHandler_sat (h : b.Sound []) (hget : b.watchedDirs.get? dir.path = some dir)
    (hc : IsPath c) (hne : c ≠ []) (hpath : dir.path = render c.dropLast) :
    Sat (modifyHandler x b dir (render c)) (fun b' => b'.Sound [] ∧ Handled x c b b')
      (fun _ => False) := by
  have hbegins : dir.path.isPrefixOf (render c) = true := hpath ▸ isPrefixOf_render hne
  unfold modifyHandler nihAssert
  rw [hbegins, check_true, skipSlashes_render hc]
  exact ⟨h.handleEvents _, handled_events (Store.mem_of_get? hget) hpath fun _ _ =>
    modifyEvents_reports⟩

/-- `delete_handler` does not move files. -/
theorem deleteHandler_sat (h : b.Sound []) (hget : b.watchedDirs.get? dir.path = some dir)
    (hc : IsPath c) (hne : c ≠ []) (hpath : dir.path = render c.dropLast)
    (hguard : ∀ file ∈ dir.files, deleteMoves (render c) file = false) :
    Sat (deleteHandler x b dir (render c)) (fun b' => b'.Sound [] ∧ Handled x c b b')
      (fun _ => False) := by
  have hbegins : dir.path.isPrefixOf (render c) = true := hpath ▸ isPrefixOf_render hne
  have hnone : dir.files.any (deleteMoves (render c)) = false :=
    List.any_eq_false.mpr fun f hf => by rw [hguard f hf]; exact Bool.false_ne_true
  unfold deleteHandler nihAssert
  dsimp only
  rw [hbegins, check_true, skipSlashes_render hc, hnone]
  exact ⟨h.handleEvents _, handled_events (Store.mem_of_get? hget) hpath fun _ _ =>
    deleteEvents_reports⟩

/-! ## Notifications -/

/-- The path that is handed to inotify is that of the directory. -/
theorem WatchedDir.Placed.watchedPath {tree : List (List Text × Bool)} (h : dir.Placed tree) :
    dir.watchedPath = dir.path := by
  rw [WatchedDir.watchedPath, if_neg fun hslash => h.canonical.getLast? hslash.2]

/-- A change in the file system does not concern the watches of other directories. -/
theorem notify_other {i : TreeInput} {watched : Text}
    (hself : components watched = i.path → ∀ c, i ≠ .deleted c)
    (hparent : components watched ≠ i.path.dropLast) (b : Bridge) :
    notify x i b watched = .ok b := by
  unfold notify
  cases hget : b.watchedDirs.get? watched with
  | none => rfl
  | some dir =>
    have hkey : dir.path = watched := Store.key_of_get? hget
    dsimp only
    rw [hkey]
    split
    · rfl
    · split
      · rename_i heq
        cases i with
        | deleted c => exact absurd rfl (hself heq c)
        | created | modified => rfl
      · rfl

theorem isPath_of_enabled {i : TreeInput} (h : TreeEnabled b i) :
    i.path ≠ [] ∧ IsPath i.path := by
  cases i with
  | created | modified | deleted => exact ⟨h.1, h.2.1⟩

/-- What is created was not there. -/
theorem not_present_created {isDir : Bool} (h : TreeEnabled b (.created c isDir)) :
    ¬ Present b.tree c := by
  obtain ⟨-, hc, -, hnone⟩ := h
  have habsent := (stat_none hnone).2
  rwa [components_render hc] at habsent

/-- The watched directories exist after a change as well. -/
theorem apply_sound {i : TreeInput} (h : b.Sound []) (hguard : Guarded x b (.tree i)) :
    Bridge.Sound [] { b with tree := i.apply b.tree } := by
  refine ⟨fun dir hdir => ?_, h.accounted.listed, h.accounted.once, h.accounted.given⟩
  have hplaced := h.placed dir hdir
  refine ⟨hplaced.canonical, hplaced.below, ?_, hplaced.watching, hplaced.files⟩
  obtain ⟨isDir, hmem⟩ := hplaced.present
  cases i with
  | created c isDir' => exact ⟨isDir, List.mem_append_left _ hmem⟩
  | modified c => exact ⟨isDir, hmem⟩
  | deleted c => exact ⟨isDir, List.mem_filter.mpr ⟨hmem, decide_eq_true (hguard dir hdir).1⟩⟩

/-- The watch of the directory above the path calls the handler. -/
theorem notify_parent {i : TreeInput} (h : b.Sound []) (henabled : TreeEnabled b i)
    (hguard : Guarded x b (.tree i)) (hget : b.watchedDirs.get? dir.path = some dir)
    (hdir : components dir.path = i.path.dropLast) :
    Sat (notify x i { b with tree := i.apply b.tree } dir.path)
      (fun b' => b'.Sound [] ∧ Handled x i.path b b') (fun _ => False) := by
  obtain ⟨hne, hpath⟩ := isPath_of_enabled henabled
  have hplaced := h.placed.get? hget
  have hsound := apply_sound h hguard
  have htext : dir.path = render i.path.dropLast := by rw [← hdir, hplaced.canonical.2]
  have hother : components dir.path ≠ i.path := by
    intro heq
    have hlength := congrArg List.length (heq.symm.trans hdir)
    rw [List.length_dropLast] at hlength
    have hpos := List.length_pos_iff.mpr hne
    omega
  have hchild : dir.watchedPath ++ '/' :: i.path.getLastD [] = render i.path := by
    rw [hplaced.watchedPath, htext, ← render_dropLast hne]
  have hgetTree : ({ b with tree := i.apply b.tree } : Bridge).watchedDirs.get? dir.path =
      some dir := hget
  unfold notify
  rw [hgetTree]
  dsimp only
  rw [hplaced.watching, if_neg (by simp), if_neg hother, if_pos hdir]
  unfold notifyChild
  dsimp only
  rw [hchild]
  split
  · exact ⟨hsound, (Handled.refl x _ b).kept, (Handled.refl x _ b).reported⟩
  · cases i with
    | created c isDir =>
      have hpresent : Present (b.tree ++ [(c, isDir)]) c :=
        ⟨isDir, List.mem_append_right _ List.mem_cons_self⟩
      have hfresh : b.watchedDirs.get? (render c) = none := by
        refine Store.get?_eq_none.mpr fun d hd heq => not_present_created henabled ?_
        have hnames : components (render c) = c := components_render hpath
        have hpresent' := (h.placed d hd).present
        rwa [show d.path = render c from heq, hnames] at hpresent'
      exact (createHandler_sat hsound hget hpath hne hdir hpresent hfresh
        (hguard dir (Store.mem_of_get? hget) hdir)).imp fun b' ⟨hs, hh⟩ =>
          ⟨hs, hh.kept, hh.reported⟩
    | modified c =>
      exact (modifyHandler_sat hsound hget hpath hne htext).imp fun b' ⟨hs, hh⟩ =>
        ⟨hs, hh.kept, hh.reported⟩
    | deleted c =>
      exact (deleteHandler_sat hsound hget hpath hne htext
        ((hguard dir (Store.mem_of_get? hget)).2 hdir)).imp fun b' ⟨hs, hh⟩ =>
          ⟨hs, hh.kept, hh.reported⟩

/-- A change in the file system keeps the invariant, and no assertion fails. -/
theorem treeStep_sat {i : TreeInput} (h : b.Sound []) (henabled : TreeEnabled b i)
    (hguard : Guarded x b (.tree i)) :
    Sat (treeStep x b i) (fun b' => b'.Sound [] ∧ Handled x i.path b b') (fun _ => False) := by
  obtain ⟨hne, hpath⟩ := isPath_of_enabled henabled
  have habove := List.dropLast_prefix i.path
  have hparent : IsPath i.path.dropLast := IsPath.above habove hpath
  have hother : ∀ watched ∈ b.watchedDirs.items.map WatchedDir.path,
      watched ≠ render i.path.dropLast → ∀ s, notify x i s watched = .ok s := by
    intro watched hwatched hne'
    obtain ⟨dir, hdir, rfl⟩ := List.mem_map.mp hwatched
    have hplaced := h.placed dir hdir
    refine notify_other (fun heq c hi => ?_) fun heq => hne' ?_
    · subst hi
      exact (hguard dir hdir).1 heq
    · rw [← heq, hplaced.canonical.2]
  have hnodup : (b.watchedDirs.items.map WatchedDir.path).Nodup := b.watchedDirs.nodup
  unfold treeStep
  rw [foldlM_single hnodup hother]
  split
  · rename_i hmem
    obtain ⟨dir, hdir, hdirPath⟩ := List.mem_map.mp hmem
    rw [← hdirPath]
    refine notify_parent h henabled hguard (Store.get?_of_mem hdir) ?_
    rw [hdirPath, components_render hparent]
  · exact ⟨apply_sound h hguard, (Handled.refl x _ b).kept, (Handled.refl x _ b).reported⟩

/-! ## Every run -/

theorem bridgeStep_sat {i : BridgeInput} (h : b.Sound []) (henabled : BridgeEnabled b i)
    (hguard : Guarded x b i) :
    Sat (bridgeStep x b i) (fun b' => b'.Sound []) (fun _ => False) := by
  cases i with
  | jobAdded path infos => exact (upstartJobAdded_sat h hguard).imp fun _ h' => h'.1
  | jobRemoved path => exact (upstartJobRemoved_sound h).1
  | tree i => exact (treeStep_sat h henabled hguard).imp fun _ h' => h'.1

theorem Bridge.Initial.sound (h : b.Initial) : b.Sound [] := by
  have howned : ∀ id, b.owned id = 0 := fun id => by rw [Bridge.owned, Store.tally, h.jobs]; rfl
  have hlisted : ∀ id, b.listed id = 0 := fun id => by
    rw [Bridge.listed, Store.tally, h.watchedDirs]
    rfl
  refine ⟨fun dir hdir => ?_, fun id => ?_, fun id => ?_, fun id _ => ?_⟩
  · rw [h.watchedDirs] at hdir
    cases hdir
  · rw [hlisted, howned]
    rfl
  · rw [howned]
    exact Nat.zero_le 1
  · rw [howned]
    rfl

theorem reached_sound (h : BridgeReached Guarded b) : b.Sound [] := by
  refine Reach.invariant (fun b hb => hb.sound) (fun b i hs hi => ?_) h
  exact (bridgeStep_sat hs hi.1 hi.2).mono (fun _ h' => h') fun _ _ => trivial

/-- In a run whose inputs are all guarded every file of a job is listed once; no two
directories have the same names; a directory exists, has been watched ever since, and is at or
above its files; and a guarded input fails no assertion, leaves the files that are not at or
below its path where they are, and is reported only for the files at the path, for its directory
and for the patterns that it matches. -/
theorem reached_watches (h : BridgeReached Guarded b) :
    (∀ job ∈ b.jobs.items, ∀ id ∈ job.files, b.listed id = 1) ∧
      (∀ dir ∈ b.watchedDirs.items, ∀ dir' ∈ b.watchedDirs.items,
        components dir.path = components dir'.path → dir = dir') ∧
      (∀ dir ∈ b.watchedDirs.items, dir.watching = true ∧
        Present b.tree (components dir.path) ∧
        ∀ file ∈ dir.files, components dir.path <+: components file.path) ∧
      ∀ x i, BridgeEnabled b i → Guarded x b i →
        Sat (bridgeStep x b i) (fun b' => ∀ t, i = .tree t → Handled x t.path b b')
          (fun _ => False) := by
  have hs := reached_sound h
  refine ⟨fun job hjob id hid => ?_, fun dir hdir dir' hdir' heq => ?_, fun dir hdir => ?_,
    fun x i henabled hguard => ?_⟩
  · have hlisted := hs.accounted.listed id
    have honce := hs.accounted.once id
    have hpos := List.count_pos_iff.mpr hid
    have hle : job.files.count id ≤ b.owned id :=
      Store.le_tally (f := fun j : Job => j.files.count id) hjob
    rw [List.count_nil] at hlisted honce
    omega
  · have hpath : dir.path = dir'.path :=
      (hs.placed dir hdir).canonical.ext (hs.placed dir' hdir').canonical heq
    have hget : b.watchedDirs.get? dir.path = some dir := Store.get?_of_mem hdir
    have hget' : b.watchedDirs.get? dir.path = some dir' := hpath ▸ Store.get?_of_mem hdir'
    exact Option.some.inj (hget.symm.trans hget')
  · have hplaced := hs.placed dir hdir
    exact ⟨hplaced.watching, hplaced.present, fun file hfile => (hplaced.files file hfile).2⟩
  · cases i with
    | tree t =>
      refine (treeStep_sat hs henabled hguard).imp fun b' h' t' heq => ?_
      cases heq
      exact h'.2
    | jobAdded path infos =>
      exact (bridgeStep_sat hs henabled hguard).imp fun _ _ t heq => by cases heq
    | jobRemoved path =>
      exact (bridgeStep_sat hs henabled hguard).imp fun _ _ t heq => by cases heq

/-- A library without patterns, and a kernel that can watch everything. -/
def plainHost : Host := ⟨fun _ _ => false, fun _ => [], fun _ => true⟩

/-- The bridge when it has just been started. -/
def newBridge : Bridge := ⟨.empty, .empty, 0, [], []⟩

theorem reached_newBridge (C : Host → Bridge → BridgeInput → Prop) : BridgeReached C newBridge :=
  .init ⟨rfl, rfl⟩

/-- A step of a concrete run on the plain host. -/
theorem BridgeReached.next {C : Host → Bridge → BridgeInput → Prop} (h : BridgeReached C b)
    (i : BridgeInput) (hi : BridgeEnabled b i ∧ C plainHost b i)
    (hs : bridgeStep plainHost b i = .ok b') : BridgeReached C b' :=
  .step (i := (plainHost, i)) h hi hs

/-- A job watches for a file two levels below a directory, and the level between is created. -/
theorem reached_watches_moved :
    ∃ b dir, BridgeReached Guarded b ∧ b.watchedDirs.items = [dir] ∧
      dir.path = "/v/l".toList ∧ dir.files.map WatchedFile.path = ["/v/l/f".toList] ∧
      ∀ job ∈ b.jobs.items, ∀ id ∈ job.files, b.listed id = 1 := by
  have h₁ := (reached_newBridge Guarded).next (.tree (.created [['v']] true))
    ⟨⟨by simp, by decide, rfl, rfl⟩, fun _ hd => by cases hd⟩ rfl
  have h₂ := h₁.next (.jobAdded "j".toList [⟨"/v/l/f".toList, none, [.create], none⟩])
    ⟨fun _ hinfo => List.mem_singleton.mp hinfo ▸ rfl, fun _ hinfo =>
      List.mem_singleton.mp hinfo ▸ ⟨[['v'], ['l'], ['f']], by decide, .inl rfl⟩⟩ rfl
  have h₃ := h₂.next (.tree (.created [['v'], ['l']] true))
    ⟨⟨by simp, by decide, rfl, rfl⟩, fun _ hd _ _ hfile _ => by
      rw [List.mem_singleton.mp hd] at hfile
      rw [List.mem_singleton.mp hfile]
      exact ⟨by decide, rfl⟩⟩ rfl
  exact ⟨_, _, h₃, rfl, rfl, rfl, (reached_watches h₃).1⟩

/-! ## What the guard leaves out -/

/-- No condition. -/
abbrev Unguarded : Host → Bridge → BridgeInput → Prop := fun _ _ _ => True

/-- A job watches for `/v/application`, and `/v/app` is created, to which the watch is moved.
A job watches for it, and `/v/app` is deleted: the handler uses the directory that it has freed.
A job watches a directory, which is deleted, and its watch remains listed. -/
theorem watches_astray :
    (∃ b dir file, BridgeReached Unguarded b ∧ b.watchedDirs.items = [dir] ∧
      dir.files = [file] ∧ dir.path = "/v/app".toList ∧ file.path = "/v/application".toList ∧
      (∃ job ∈ b.jobs.items, file.id ∈ job.files) ∧
      ¬ components dir.path <+: components file.path) ∧
    (∃ b, BridgeReached Unguarded b ∧ BridgeEnabled b (.tree (.deleted [['v'], "app".toList])) ∧
      bridgeStep plainHost b (.tree (.deleted [['v'], "app".toList])) =
        .error (.useAfterFree .deleteHandler)) ∧
    ∃ b dir file, BridgeReached Unguarded b ∧ b.watchedDirs.items = [dir] ∧
      dir.files = [file] ∧ dir.watching = false ∧ b.stat dir.path = none := by
  have h₁ := (reached_newBridge Unguarded).next (.tree (.created [['v']] true))
    ⟨⟨by simp, by decide, rfl, rfl⟩, trivial⟩ rfl
  have h₂ := h₁.next (.jobAdded "j".toList [⟨"/v/application".toList, none, [.create], none⟩])
    ⟨fun _ hinfo => List.mem_singleton.mp hinfo ▸ rfl, trivial⟩ rfl
  have h₃ := h₂.next (.tree (.created [['v'], "app".toList] true))
    ⟨⟨by simp, by decide, rfl, rfl⟩, trivial⟩ rfl
  have k₂ := h₂.next (.tree (.created [['v'], "app".toList] false))
    ⟨⟨by simp, by decide, rfl, rfl⟩, trivial⟩ rfl
  have l₂ := h₁.next (.jobAdded "j".toList [⟨"/v/".toList, none, [.create], none⟩])
    ⟨fun _ hinfo => List.mem_singleton.mp hinfo ▸ rfl, trivial⟩ rfl
  have l₃ := l₂.next (.tree (.deleted [['v']]))
    ⟨⟨by simp, by decide, rfl, by decide⟩, trivial⟩ rfl
  refine ⟨⟨_, _, _, h₃, rfl, rfl, rfl, rfl, ⟨_, List.mem_singleton_self _, by decide⟩, by decide⟩,
    ⟨_, k₂, ⟨by simp, by decide, rfl, by decide⟩, rfl⟩, _, _, _, l₃, rfl, rfl, rfl, rfl⟩

end Startup.FileBridge
