import Startup.World.Released

/-!
# Loading a file of a source

What `conf_load_path_with_override` does to the files of the sources, and to the classes that the
files had.

* `World.Apart`: no two files have the same path in a source, or the same class;
* `Loads`: the file is replaced by one with a new class, or removed if it cannot be read;
* `confLoadPathWithOverride_loads`: this is what the function does.
-/

namespace Startup

open Lib

/-- The source of a file, and its path. -/
def ConfFile.key (file : ConfFile) : Nat × String := (file.source, file.path)

/-- No two files have the same path in a source, or the same class. -/
structure World.Apart (w : World) : Prop where
  nodup : (w.files.map ConfFile.key).Nodup
  jobs : ∀ f ∈ w.files, ∀ g ∈ w.files, ∀ c, f.job = some c → g.job = some c → f.key = g.key
  known : ∀ f ∈ w.files, ∀ c, f.job = some c → c ≤ w.lastClass

/-- A file has been loaded: its old class is released, and the new file, if it could be read, has
none or a new one. -/
structure Loads (w w' : World) (source : Nat) (path : String) (readable : Bool) : Prop where
  shrinks : Shrinks w w'
  apart : w'.Apart
  files : ∃ job, (∀ c, job = some c → w.lastClass < c) ∧ ∀ f, f ∈ w'.files ↔
    f ∈ w.files ∧ f.key ≠ (source, path) ∨ readable = true ∧ f = ⟨source, path, job⟩
  released : ∀ f ∈ w.files, f.key = (source, path) → ∀ c, f.job = some c → w'.Released c

variable {x : Host} {w w' : World} {source : Nat} {path : String} {file f : ConfFile}

/-! ## The files -/

theorem mem_removeFile :
    f ∈ (w.removeFile source path).files ↔ f ∈ w.files ∧ f.key ≠ (source, path) := by
  rw [World.removeFile, List.mem_filter, decide_eq_true_eq, ConfFile.key, Ne, Prod.mk.injEq]

theorem putFile_perm (w : World) (file : ConfFile) :
    (w.putFile file).files.Perm (file :: (w.removeFile file.source file.path).files) := by
  rw [World.putFile]
  dsimp only
  refine List.perm_middle.trans ?_
  rw [List.takeWhile_append_dropWhile]

theorem mem_putFile :
    f ∈ (w.putFile file).files ↔ f ∈ w.files ∧ f.key ≠ file.key ∨ f = file := by
  rw [(putFile_perm w file).mem_iff, List.mem_cons, mem_removeFile, or_comm]
  rfl

theorem World.Apart.removeFile (h : w.Apart) (source : Nat) (path : String) :
    (w.removeFile source path).Apart where
  nodup := h.nodup.sublist (List.filter_sublist.map ConfFile.key)
  jobs f hf g hg := h.jobs f (mem_removeFile.mp hf).1 g (mem_removeFile.mp hg).1
  known f hf := h.known f (mem_removeFile.mp hf).1

/-- Nothing is said of the rest of the state. -/
theorem World.Apart.congr (h : w.Apart) (hfiles : w'.files = w.files)
    (hlast : w.lastClass ≤ w'.lastClass) : w'.Apart := by
  obtain ⟨hnodup, hjobs, hknown⟩ := h
  rw [← hfiles] at hnodup hjobs hknown
  exact ⟨hnodup, hjobs, fun f hf c hc => Nat.le_trans (hknown f hf c hc) hlast⟩

theorem World.Apart.putFile (h : w.Apart)
    (hjob : ∀ c, file.job = some c → c ≤ w.lastClass ∧
      ∀ g ∈ w.files, g.key ≠ file.key → g.job ≠ some c) : (w.putFile file).Apart where
  nodup := by
    rw [((putFile_perm w file).map ConfFile.key).nodup_iff, List.map_cons, List.nodup_cons]
    refine ⟨?_, (h.removeFile file.source file.path).nodup⟩
    intro hmem
    obtain ⟨g, hg, hkey⟩ := List.mem_map.mp hmem
    exact (mem_removeFile.mp hg).2 hkey
  jobs := by
    intro f hf g hg c hfc hgc
    rcases mem_putFile.mp hf with ⟨hf', hfkey⟩ | rfl
    · rcases mem_putFile.mp hg with ⟨hg', hgkey⟩ | rfl
      · exact h.jobs f hf' g hg' c hfc hgc
      · exact absurd hfc ((hjob c hgc).2 f hf' hfkey)
    · rcases mem_putFile.mp hg with ⟨hg', hgkey⟩ | rfl
      · exact absurd hgc ((hjob c hfc).2 g hg' hgkey)
      · rfl
  known := by
    intro f hf c hc
    rcases mem_putFile.mp hf with ⟨hf, -⟩ | rfl
    · exact h.known f hf c hc
    · exact (hjob c hc).1

theorem confFile?_eq_some (h : w.confFile? source path = some file) :
    file ∈ w.files ∧ file.key = (source, path) := by
  have hkey := List.find?_some h
  rw [decide_eq_true_eq] at hkey
  exact ⟨List.mem_of_find?_eq_some h, Prod.ext hkey.1 hkey.2⟩

theorem confFile?_eq_none : w.confFile? source path = none ↔
    ∀ f ∈ w.files, f.key ≠ (source, path) := by
  simp [World.confFile?, ConfFile.key]

/-- The file at a path is the only one. -/
theorem World.Apart.confFile?_eq (h : w.Apart) (hf : f ∈ w.files) (hkey : f.key = (source, path)) :
    w.confFile? source path = some f := by
  cases hfound : w.confFile? source path with
  | none => exact absurd hkey (confFile?_eq_none.mp hfound f hf)
  | some g =>
    obtain ⟨hg, hgkey⟩ := confFile?_eq_some hfound
    rw [List.inj_on_of_nodup_map h.nodup hg hf (hgkey.trans hkey.symm)]

/-! ## Loading -/

/-- The file that has been replaced is destroyed. -/
theorem destroyOrig_released (w : World) (orig : Option ConfFile) :
    Sat (destroyOrig w orig)
      (fun w' => Shrinks w w' ∧ w'.files = w.files ∧ ∀ file, orig = some file → ∀ c,
        file.job = some c → (∀ other ∈ w.files, other.job ≠ some c) → w'.Released c)
      (fun _ => True) := by
  unfold destroyOrig
  split
  · exact ⟨.refl w, rfl, nofun⟩
  · rename_i file
    refine (confFileDestroy_released w file).imp fun w' h => ⟨h.1, h.2.1, ?_⟩
    intro file' hfile'
    obtain rfl := Option.some.inj hfile'
    exact h.2.2

/-- The first call of `conf_reload_path` for a file. -/
theorem confReloadPath_loads (x : Host) (hw : w.Apart) (source : Nat) (path : String)
    (content : Option Parsed) : Sat (confReloadPath x w source path false content)
      (fun r => Loads w r.1 source path content.isSome ∧ r.2 = content.isSome)
      (fun _ => True) := by
  have hremoved := hw.removeFile source path
  have horig (f : ConfFile) (hf : f ∈ w.files) (hkey : f.key = (source, path)) :
      w.confFile? source path = some f := hw.confFile?_eq hf hkey
  -- no file that is left has the class of the one that is replaced
  have hothers (f : ConfFile) (hf : f ∈ w.files) (hkey : f.key = (source, path)) (c : ClassId)
      (hc : f.job = some c) : ∀ g ∈ (w.removeFile source path).files, g.job ≠ some c := by
    intro g hg hgc
    obtain ⟨hg, hgkey⟩ := mem_removeFile.mp hg
    exact hgkey ((hw.jobs g hg f hf c hgc hc).trans hkey)
  have hshrinks : Shrinks w (w.removeFile source path) := shrinks_setFiles w _
  unfold confReloadPath
  cases content with
  | none =>
    rw [sat_bind]
    refine (destroyOrig_released (w.removeFile source path) (w.confFile? source path)).imp
      fun w' h => ⟨⟨hshrinks.trans h.1, hremoved.congr h.2.1 h.1.last, ⟨none, nofun, ?_⟩, ?_⟩, rfl⟩
    · intro f
      rw [h.2.1, mem_removeFile]
      simp
    · intro f hf hkey c hc
      exact h.2.2 f (horig f hf hkey) c hc (hothers f hf hkey c hc)
  | some parsed =>
    rw [sat_bind]
    refine (parseJob_shrinks (w.removeFile source path) _ _ parsed).imp fun r hr => ?_
    obtain ⟨hparse, hfiles, hjob⟩ := hr
    have hnew (c : ClassId) (hc : r.2 = some c) : w.lastClass < c ∧ c ≤ r.1.lastClass := by
      apply (hjob c hc).1
      show ((w.removeFile source path).confFile? source path).bind ConfFile.job = none
      rw [confFile?_removeFile]
      rfl
    have hparsed : r.1.Apart := hremoved.congr hfiles hparse.last
    have hput : (r.1.putFile ⟨source, path, r.2⟩).Apart := by
      apply hparsed.putFile
      intro c hc
      refine ⟨(hnew c hc).2, ?_⟩
      intro g hg _ hgc
      rw [hfiles] at hg
      have hle := hremoved.known g hg c hgc
      exact absurd (hnew c hc).1 (Nat.not_lt.mpr hle)
    have hmem (f : ConfFile) : f ∈ (r.1.putFile ⟨source, path, r.2⟩).files ↔
        f ∈ w.files ∧ f.key ≠ (source, path) ∨ f = ⟨source, path, r.2⟩ := by
      rw [mem_putFile, hfiles, mem_removeFile]
      show (_ ∧ f.key ≠ (source, path)) ∧ f.key ≠ (source, path) ∨ _ ↔ _
      rw [and_assoc, and_self]
    rw [sat_bind]
    refine (considerParsed_same x (r.1.putFile ⟨source, path, r.2⟩) r.2).imp fun w₁ h₁ => ?_
    rw [sat_bind]
    refine (destroyOrig_released w₁ (w.confFile? source path)).imp fun w' h => ?_
    have hfile : Shrinks r.1 (r.1.putFile ⟨source, path, r.2⟩) := shrinks_setFiles r.1 _
    have hall : Shrinks w w' :=
      (hshrinks.trans hparse).trans (hfile.trans (h₁.shrinks.trans h.1))
    refine ⟨⟨hall, (hput.congr h₁.files h₁.shrinks.last).congr h.2.1 h.1.last, ⟨r.2, ?_, ?_⟩, ?_⟩,
      rfl⟩
    · intro c hc
      exact (hnew c hc).1
    · intro f
      rw [h.2.1, h₁.files, hmem]
      simp
    · intro f hf hkey c hc
      apply h.2.2 f (horig f hf hkey) c hc
      intro g hg hgc
      rw [h₁.files, hmem] at hg
      rcases hg with ⟨hg, hgkey⟩ | rfl
      · exact hothers f hf hkey c hc g (mem_removeFile.mpr ⟨hg, hgkey⟩) hgc
      · exact absurd (hnew c hgc).1 (Nat.not_lt.mpr (hw.known f hf c hc))

/-- What the second call leaves, in which a file with a new class, or with none, is changed. -/
theorem confReloadPath_overrides (x : Host) {readable : Bool} (hw : w.Apart)
    (h : Loads w w' source path readable)
    (hreadable : readable = true) (content : Option Parsed) :
    Sat (confReloadPath x w' source path true content)
      (fun r => Loads w r.1 source path readable) (fun _ => True) := by
  obtain ⟨job, hjob, hfiles⟩ := h.files
  unfold confReloadPath
  cases content with
  | none => exact h
  | some parsed =>
    rw [sat_bind]
    refine (parseJob_shrinks w' _ _ parsed).imp fun r hr => ?_
    obtain ⟨hparse, hsame, hparsed⟩ := hr
    have hmem : (⟨source, path, job⟩ : ConfFile) ∈ w'.files :=
      (hfiles _).mpr (.inr ⟨hreadable, rfl⟩)
    have hfound : w'.confFile? source path = some ⟨source, path, job⟩ :=
      h.apart.confFile?_eq hmem rfl
    have hupdate : (w'.confFile? source path).bind ConfFile.job = job := by
      rw [hfound]
      rfl
    rw [if_pos rfl, hupdate] at hparsed
    -- the class is the one that the file has, or another new one
    have hnew (c : ClassId) (hc : r.2 = some c) : w.lastClass < c ∧ c ≤ r.1.lastClass ∧
        ∀ g ∈ w'.files, g.key ≠ (source, path) → g.job ≠ some c := by
      cases job with
      | none =>
        obtain ⟨hlt, hle⟩ := (hparsed c hc).1 rfl
        refine ⟨Nat.lt_of_le_of_lt h.shrinks.last hlt, hle, ?_⟩
        intro g hg _ hgc
        exact absurd hlt (Nat.not_lt.mpr (h.apart.known g hg c hgc))
      | some c' =>
        obtain rfl := (hparsed c hc).2 c' rfl
        refine ⟨hjob c rfl, Nat.le_trans (h.apart.known _ hmem c rfl) hparse.last, ?_⟩
        intro g hg hgkey hgc
        exact hgkey (h.apart.jobs g hg _ hmem c hgc rfl)
    have hput : (r.1.putFile ⟨source, path, r.2⟩).Apart := by
      apply (h.apart.congr hsame hparse.last).putFile
      intro c hc
      refine ⟨(hnew c hc).2.1, ?_⟩
      intro g hg hgkey
      rw [hsame] at hg
      exact (hnew c hc).2.2 g hg hgkey
    rw [sat_bind]
    refine (considerParsed_same x (r.1.putFile ⟨source, path, r.2⟩) r.2).imp fun w'' h'' => ?_
    have hfile : Shrinks r.1 (r.1.putFile ⟨source, path, r.2⟩) := shrinks_setFiles r.1 _
    have hall : Shrinks w' w'' := hparse.trans (hfile.trans h''.shrinks)
    show Loads w w'' source path readable
    refine ⟨h.shrinks.trans hall, hput.congr h''.files h''.shrinks.last, ⟨r.2, ?_, ?_⟩, ?_⟩
    · intro c hc
      exact (hnew c hc).1
    · intro f
      rw [h''.files, mem_putFile, hsame, hfiles]
      show (_ ∧ f.key ≠ (source, path)) ∨ _ ↔ _
      constructor
      · rintro (⟨⟨hf, hkey⟩ | ⟨-, rfl⟩, hkey'⟩ | rfl)
        · exact .inl ⟨hf, hkey⟩
        · exact absurd rfl hkey'
        · exact .inr ⟨hreadable, rfl⟩
      · rintro (⟨hf, hkey⟩ | ⟨-, rfl⟩)
        · exact .inl ⟨.inl ⟨hf, hkey⟩, hkey⟩
        · exact .inr rfl
    · intro f hf hkey c hc
      exact hall.released c (Nat.le_trans (hw.known f hf c hc) h.shrinks.last)
        (h.released f hf hkey c hc)

/-- A file is loaded with its override. -/
theorem confLoadPathWithOverride_loads (x : Host) (hw : w.Apart) (source : Nat) (path : String)
    (content : Option Parsed) (override : Option (Option Parsed)) :
    Sat (confLoadPathWithOverride x w source path content override)
      (fun w' => Loads w w' source path content.isSome) (fun _ => True) := by
  unfold confLoadPathWithOverride
  rw [sat_bind]
  refine (confReloadPath_loads x hw source path content).imp fun r hr => ?_
  dsimp only
  split
  · exact hr.1
  · rename_i hok
    split
    · exact hr.1
    · rename_i content'
      rw [sat_bind]
      refine (confReloadPath_overrides x hw hr.1 ?_ content').imp fun r' hr' => hr'
      rw [← hr.2]
      simpa using hok

end Startup
