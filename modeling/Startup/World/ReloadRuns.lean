import Startup.World.Machine
import Startup.World.Overrides
import Startup.World.Reloading

/-!
# Reloads are exact but for overrides

* `FoundConf`: the configuration files that a reload finds;
* `ReloadsExactly`: after it the files of the source are those that it has found and could read;
* `NoneKept`: where no other file is loaded again for an override file;
* `confSourceReload_iff`: the one holds exactly where the other does, in all runs.
-/

namespace Startup

open Lib

/-- What a reload finds below the directory of a source. -/
def ConfState.entries (s : ConfState) (input : ReloadInput) (source : Nat) : List DirEntry :=
  s.world.unfiltered source <|
    if s.watch source then input.walked
    else input.watched ++ if input.watchOk then [] else input.walked

/-- A regular file with a name and the extension `.conf` is found at a path. -/
def FoundConf (s : ConfState) (input : ReloadInput) (source : Nat) (path : String) : Prop :=
  ∃ entry ∈ s.entries input source, entry.regular = true ∧ isConfFile path = true ∧
    isConfFileStd path = true ∧ entry.path = path

/-- An override file of a configuration file is found when the directory is watched for the first
time. -/
def FoundOverride (s : ConfState) (input : ReloadInput) (source : Nat) (path : String) : Prop :=
  s.watch source = false ∧ ∃ entry ∈ s.world.unfiltered source input.watched,
    entry.regular = true ∧ isConfFile entry.path = true ∧ isConfFileStd entry.path = false ∧
      path = configPath s.world (confToJobName (s.world.sources.getD source "") entry.path) source

/-- The files of a source are those that a reload has found and could read, each once, with a class
that was parsed by the reload or with none.  The class of every other file that there was is freed,
unless it has instances. -/
structure ReloadsExactly (s s' : ConfState) (source : Nat) (input : ReloadInput) : Prop where
  files : ∀ path, (∃ f ∈ s'.world.files, f.key = (source, path)) ↔
    FoundConf s input source path ∧ (input.disk.read path).isSome = true
  once : (s'.world.files.map ConfFile.key).Nodup
  parsed : ∀ f ∈ s'.world.files, f.source = source → ∀ c, f.job = some c →
    s.world.lastClass < c
  destroyed : ∀ f ∈ s.world.files, f.source = source →
    ¬ (FoundConf s input source f.path ∧ (input.disk.read f.path).isSome = true) →
      ∀ c, f.job = some c → s'.world.classes.get? c = none ∨ s'.world.instances c ≠ []

/-- A file of the source whose override file is found when the directory is watched for the first
time is found itself, or cannot be read. -/
def NoneKept (s : ConfState) (input : ReloadInput) (source : Nat) : Prop :=
  ∀ f ∈ s.world.files, f.source = source → FoundOverride s input source f.path →
    (input.disk.read f.path).isSome = true → FoundConf s input source f.path

/-- The directory itself is not a regular file. -/
def ReloadInput.OfDirectory (input : ReloadInput) (sourcePath : String) : Prop :=
  ∀ entry ∈ input.watched ++ input.walked, entry.path = sourcePath → entry.regular = false

variable {x : Host} {s s' : ConfState} {input : ReloadInput} {source : Nat} {path : String}
  {entry : DirEntry}

/-! ## What a reload comes to -/

theorem mem_visitorMarks : Mark.visit (source, path) ∈ visitorMarks source entry ↔
    entry.regular = true ∧ isConfFileStd path = true ∧ entry.path = path := by
  rw [visitorMarks]
  split
  · rename_i hregular
    simp_all
  · rename_i hregular
    rw [Bool.not_eq_true', Bool.not_eq_false] at hregular
    split
    · rename_i hstd
      rw [List.mem_singleton, Mark.visit.injEq, Prod.mk.injEq]
      constructor
      · intro h
        exact ⟨hregular, h.2 ▸ hstd, h.2.symm⟩
      · intro h
        exact ⟨rfl, h.2.2.symm⟩
    · rename_i hstd
      refine iff_of_false List.not_mem_nil ?_
      intro h
      exact hstd (h.2.2 ▸ h.2.1)

theorem refresh_not_mem_visitorMarks {k : Nat × String} :
    Mark.refresh k ∉ visitorMarks source entry := by
  rw [visitorMarks]
  split
  · exact List.not_mem_nil
  · split
    · simp
    · exact List.not_mem_nil

/-- The three ways of `conf_create_modify_handler` for an entry. -/
theorem handlerMarks_eq (w : World) (source : Nat) (entry : DirEntry) :
    handlerMarks w source entry.path (some entry.regular) =
      if entry.regular && isConfFile entry.path then
        if isConfFileStd entry.path then [.visit (source, entry.path)]
        else (List.range w.sources.length).map fun i =>
          .refresh (i, configPath w (confToJobName (w.sources.getD source "") entry.path) i)
      else [] := by
  rw [handlerMarks]
  cases entry.regular with
  | false => rfl
  | true =>
    rw [if_neg (by decide), Bool.true_and]
    cases isConfFile entry.path with
    | false => rfl
    | true => rfl

theorem visit_mem_handlerMarks {w : World} :
    Mark.visit (source, path) ∈ handlerMarks w source entry.path (some entry.regular) ↔
      entry.regular = true ∧ isConfFile path = true ∧ isConfFileStd path = true ∧
        entry.path = path := by
  rw [handlerMarks_eq]
  split
  · rename_i hconf
    rw [Bool.and_eq_true] at hconf
    split
    · rename_i hstd
      rw [List.mem_singleton, Mark.visit.injEq, Prod.mk.injEq]
      constructor
      · intro h
        exact ⟨hconf.1, h.2 ▸ hconf.2, h.2 ▸ hstd, h.2.symm⟩
      · intro h
        exact ⟨rfl, h.2.2.2.symm⟩
    · rename_i hstd
      refine iff_of_false (by simp) ?_
      intro h
      exact hstd (h.2.2.2 ▸ h.2.2.1)
  · rename_i hconf
    refine iff_of_false List.not_mem_nil ?_
    intro h
    rw [Bool.and_eq_true] at hconf
    exact hconf ⟨h.1, h.2.2.2 ▸ h.2.1⟩

theorem refresh_mem_handlerMarks {w : World} (hsource : source < w.sources.length) :
    Mark.refresh (source, path) ∈ handlerMarks w source entry.path (some entry.regular) ↔
      entry.regular = true ∧ isConfFile entry.path = true ∧ isConfFileStd entry.path = false ∧
        path = configPath w (confToJobName (w.sources.getD source "") entry.path) source := by
  rw [handlerMarks_eq]
  split
  · rename_i hconf
    rw [Bool.and_eq_true] at hconf
    split
    · rename_i hstd
      simp [hstd]
    · rename_i hstd
      rw [List.mem_map]
      constructor
      · intro h
        obtain ⟨i, -, heq⟩ := h
        rw [Mark.refresh.injEq, Prod.mk.injEq] at heq
        obtain ⟨rfl, rfl⟩ := heq
        exact ⟨hconf.1, hconf.2, Bool.eq_false_of_not_eq_true hstd, rfl⟩
      · intro h
        refine ⟨source, List.mem_range.mpr hsource, ?_⟩
        rw [← h.2.2.2]
  · rename_i hconf
    refine iff_of_false List.not_mem_nil ?_
    intro h
    rw [Bool.and_eq_true] at hconf
    exact hconf ⟨h.1, h.2.1⟩

/-- Below the directory only configuration files are let through. -/
theorem isConfFile_of_unfiltered {w : World} {entries : List DirEntry}
    (hentry : entry ∈ w.unfiltered source entries) (hbelow : entry.path ≠ w.sources.getD source "") :
    isConfFile entry.path = true := by
  have hfilter := (List.mem_filter.mp hentry).2
  rw [Bool.not_eq_true', confDirFilter, Bool.and_eq_false_iff] at hfilter
  rcases hfilter with hsame | hconf
  · rw [decide_eq_false_iff_not, not_not] at hsame
    exact absurd hsame.symm hbelow
  · simpa using hconf

theorem visit_mem_walkMarks (hdir : input.OfDirectory (s.world.sources.getD source "")) :
    Mark.visit (source, path) ∈ walkMarks s.world input source ↔
      ∃ entry ∈ s.world.unfiltered source input.walked, entry.regular = true ∧
        isConfFile path = true ∧ isConfFileStd path = true ∧ entry.path = path := by
  rw [walkMarks, List.mem_flatMap]
  refine exists_congr fun entry => and_congr_right fun hentry => ?_
  rw [mem_visitorMarks]
  constructor
  · intro h
    have hmem := List.mem_append_right input.watched (List.mem_filter.mp hentry).1
    have hbelow : entry.path ≠ s.world.sources.getD source "" := by
      intro hsame
      rw [hdir entry hmem hsame] at h
      cases h.1
    exact ⟨h.1, h.2.2 ▸ isConfFile_of_unfiltered hentry hbelow, h.2⟩
  · intro h
    exact ⟨h.1, h.2.2⟩

theorem visit_mem_watchMarks : Mark.visit (source, path) ∈ watchMarks s.world input source ↔
    ∃ entry ∈ s.world.unfiltered source input.watched, entry.regular = true ∧
      isConfFile path = true ∧ isConfFileStd path = true ∧ entry.path = path := by
  rw [watchMarks, List.mem_flatMap]
  exact exists_congr fun entry => and_congr_right fun _ => visit_mem_handlerMarks

theorem visit_mem_reloadMarks (hdir : input.OfDirectory (s.world.sources.getD source "")) :
    Mark.visit (source, path) ∈ reloadMarks s input source ↔ FoundConf s input source path := by
  rw [reloadMarks, FoundConf, ConfState.entries]
  split
  · exact visit_mem_walkMarks hdir
  · split
    · rw [List.append_nil, List.append_nil]
      exact visit_mem_watchMarks
    · rw [List.mem_append, visit_mem_watchMarks, visit_mem_walkMarks hdir, World.unfiltered,
        World.unfiltered, World.unfiltered, List.filter_append]
      simp only [List.mem_append, or_and_right, exists_or]

theorem refresh_not_mem_walkMarks {k : Nat × String} :
    Mark.refresh k ∉ walkMarks s.world input source := by
  rw [walkMarks, List.mem_flatMap]
  intro h
  obtain ⟨entry, -, hmem⟩ := h
  exact refresh_not_mem_visitorMarks hmem

theorem refresh_mem_reloadMarks (hsource : source < s.world.sources.length) :
    Mark.refresh (source, path) ∈ reloadMarks s input source ↔
      FoundOverride s input source path := by
  have hwatched : Mark.refresh (source, path) ∈ watchMarks s.world input source ↔
      ∃ entry ∈ s.world.unfiltered source input.watched,
        entry.regular = true ∧ isConfFile entry.path = true ∧ isConfFileStd entry.path = false ∧
          path = configPath s.world (confToJobName (s.world.sources.getD source "") entry.path)
            source := by
    rw [watchMarks, List.mem_flatMap]
    exact exists_congr fun entry => and_congr_right fun _ => refresh_mem_handlerMarks hsource
  rw [reloadMarks, FoundOverride]
  cases s.watch source with
  | true => exact iff_of_false refresh_not_mem_walkMarks fun h => absurd h.1 (by decide)
  | false =>
    rw [if_neg (by decide), List.mem_append, hwatched, and_iff_right rfl]
    refine or_iff_left ?_
    split
    · exact List.not_mem_nil
    · exact refresh_not_mem_walkMarks

/-- A reload comes to what it finds, and to the files that it loads again for an override. -/
theorem cameTo_reloadMarks (hsource : source < s.world.sources.length)
    (hdir : input.OfDirectory (s.world.sources.getD source "")) :
    CameTo s.table (reloadMarks s input source) (source, path) ↔ FoundConf s input source path ∨
      FoundOverride s input source path ∧ ∃ f ∈ s.world.files, f.key = (source, path) := by
  rw [CameTo, visit_mem_reloadMarks hdir, refresh_mem_reloadMarks hsource, table_isSome]

/-! ## Reloads -/

/-- In every state of a run, a reload is exact if and only if nothing is kept for an override. -/
theorem confSourceReload_iff (h : ConfReached s) (hsource : source < s.world.sources.length)
    (hdir : input.OfDirectory (s.world.sources.getD source "")) {ret : Int}
    (hrun : confSourceReload x input source s = .ok (s', ret)) :
    ReloadsExactly s s' source input ↔ NoneKept s input source := by
  have hleaves := (confSourceReload_leaves x input h.steady source).of_ok hrun
  have hpresent (path : String) := (hleaves.present path).trans
    (and_congr_left' (cameTo_reloadMarks hsource hdir))
  constructor
  · intro hexact f hf hfsource hoverride hread
    subst hfsource
    exact ((hexact.files f.path).mp ((hpresent f.path).mpr
      ⟨.inr ⟨hoverride, f, hf, rfl⟩, hread⟩)).1
  · intro hnone
    have hfiles (path : String) : (∃ f ∈ s'.world.files, f.key = (source, path)) ↔
        FoundConf s input source path ∧ (input.disk.read path).isSome = true := by
      rw [hpresent]
      refine and_congr_left fun hread => ?_
      constructor
      · intro hcame
        rcases hcame with hfound | ⟨hoverride, f, hf, hkey⟩
        · exact hfound
        · obtain ⟨hfsource, hpath⟩ := Prod.mk.inj hkey
          subst hpath
          exact hnone f hf hfsource hoverride hread
      · exact .inl
    refine ⟨hfiles, hleaves.steady.apart.nodup, hleaves.parsed, ?_⟩
    intro f hf hfsource hgone
    apply hleaves.released f hf hfsource
    rw [show f.key = (source, f.path) from Prod.ext hfsource rfl, hfiles]
    exact hgone

/-! ## An override of a file that is not regular -/

/-- Init when it has just started. -/
def unwatched : ConfState where
  world := newWorld
  flag _ := false
  watch _ := false
  fileFlag _ _ := false

/-- Only the configuration file of `a` can be read. -/
def diskWithA : Disk where
  read path := if path = "/one/a.conf" then some plainParsed else none
  lstatRegular path := path = "/one/a.override"

/-- The first reload, which finds a regular file. -/
def firstReload : ReloadInput where
  disk := diskWithA
  watched := [⟨"/one/a.conf", true⟩]
  watchOk := true
  walked := []
  walkOk := true

/-- The second reload, before which the file has been renamed to `b`. -/
def secondReload : ReloadInput where
  disk := { read := fun path => if path = "/one/b.conf" then some plainParsed else none
            lstatRegular := fun path => path = "/one/b.conf" }
  watched := []
  watchOk := true
  walked := [⟨"/one/b.conf", true⟩]
  walkOk := true

theorem confSourceReload_iff_secondReload : ∃ s s' ret, ConfReached s ∧
    s.world.files.map ConfFile.path = ["/one/a.conf"] ∧
    confSourceReload plainHost secondReload 0 s = .ok (s', ret) ∧
    s'.world.files.map ConfFile.path = ["/one/b.conf"] ∧
    (ReloadsExactly s s' 0 secondReload ↔ NoneKept s secondReload 0) := by
  have h₁ : ConfReached _ := .step (i := (plainHost, .reload 0 firstReload)) (s := unwatched)
    (.init rfl) (show 0 < 2 by decide) rfl
  refine ⟨_, _, _, h₁, rfl, rfl, rfl,
    confSourceReload_iff (x := plainHost) h₁ (by decide) ?_ rfl⟩
  intro entry hentry hpath
  obtain rfl := List.mem_singleton.mp hentry
  exact absurd hpath (by decide)

/-- In a new directory the file is a link to something that is no regular file, and it has an
override. -/
def linkedReload : ReloadInput where
  disk := diskWithA
  watched := [⟨"/one/a.conf", false⟩, ⟨"/one/a.override", true⟩]
  watchOk := true
  walked := [⟨"/one/a.conf", false⟩, ⟨"/one/a.override", true⟩]
  walkOk := true

/-- After the directory has been replaced, the file is kept by the reload that watches it, and
removed by the next one. -/
theorem linkedFile_kept : ∃ s s' s'' ret ret', ConfReached s ∧
    confSourceReload plainHost linkedReload 0 s = .ok (s', ret) ∧
    confSourceReload plainHost linkedReload 0 s' = .ok (s'', ret') ∧
    s'.world.files.map ConfFile.path = ["/one/a.conf"] ∧ s''.world.files = [] ∧
    ¬ ReloadsExactly s s' 0 linkedReload := by
  have h₁ : ConfReached _ := .step (i := (plainHost, .reload 0 firstReload)) (s := unwatched)
    (.init rfl) (show 0 < 2 by decide) rfl
  have h₂ : ConfReached _ := h₁.step (i := (plainHost, .deleted 0 "/one" diskWithA))
    (show 0 < 2 by decide) rfl
  refine ⟨_, _, _, _, _, h₂, rfl, rfl, rfl, rfl, ?_⟩
  intro hexact
  obtain ⟨⟨entry, hentry, hregular, -, -, hpath⟩, -⟩ :=
    (hexact.files "/one/a.conf").mp ⟨_, .head _, rfl⟩
  have hall : entry ∈ linkedReload.watched := by
    have hmem := (List.mem_filter.mp hentry).1
    split at hmem
    · exact hmem
    · exact hmem
  rcases List.mem_pair.mp hall with rfl | rfl
  · cases hregular
  · exact absurd hpath (by decide)

end Startup
