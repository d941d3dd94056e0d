import Startup.World.Machine

/-!
# Override files with errors

An override is parsed into the class that the file has.  When its stanzas have
errors, the file loses the class: it is not the one that `conf_select_job` finds
any more, and no reload frees or replaces it through its file
(`badOverride_detaches`).
-/

namespace Startup

open Lib

variable {x : Host} {w w' : World}

/-! ## Files -/

/-- A file that has been written is found. -/
theorem confFile?_putFile (w : World) (file : ConfFile) :
    (w.putFile file).confFile? file.source file.path = some file := by
  have hrest : ∀ f ∈ (w.removeFile file.source file.path).files,
      ¬ (f.source = file.source ∧ f.path = file.path) := fun f hf =>
    of_decide_eq_true (List.mem_filter.mp hf).2
  simp only [World.putFile, World.confFile?, List.find?_append]
  rw [List.find?_eq_none.mpr]
  · simp
  · intro f hf
    simpa using hrest f (List.takeWhile_sublist _ |>.subset hf)

/-! ## Parsing into a class -/

/-- A class that is parsed into takes over what the stanzas leave, also when they
have errors. -/
theorem parseJob_update {c : ClassId} {name : String} {parsed : Parsed}
    (hbad : parsed.ok = false) :
    Sat (parseJob w (some c) name parsed)
      (fun r => r.2 = none ∧ r.1.files = w.files ∧
        ∃ cls, r.1.classes.get? c = some cls ∧
          cls.config = { parsed.config with name := cls.config.name })
      (fun _ => True) := by
  unfold parseJob
  simp only [sat_bind, hbad]
  rw [sat_iff]
  refine ⟨fun cls hcls => ?_, fun _ _ => trivial⟩
  rw [sat_iff]
  refine ⟨fun r _ => ?_, fun _ _ => trivial⟩
  rw [sat_iff]
  refine ⟨fun r' _ => ⟨rfl, rfl, ?_⟩, fun _ _ => trivial⟩
  have hid : cls.id = c := by
    unfold World.getClass at hcls
    split at hcls
    · cases hcls
    · rename_i heq
      cases hcls
      exact Store.key_of_get? heq
  rw [← hid]
  exact ⟨_, Store.get?_put_self, rfl⟩

/-- What is left of an override that is ignored as a whole: the file has its
class, which is found as before and has the configuration and the conditions that
it had. -/
structure Ignored (w w' : World) (source : Nat) (path : String) (c : ClassId) : Prop where
  attached : (w'.confFile? source path).bind ConfFile.job = some c
  selected : ∀ name, confSelectJob w name = .ok (some c) → confSelectJob w' name = .ok (some c)
  same : ∀ cls, w.classes.get? c = some cls → ∃ cls', w'.classes.get? c = some cls' ∧
    cls'.config = cls.config ∧
    cls'.startOn.map eventOperatorReset = cls.startOn.map eventOperatorReset ∧
    cls'.stopOn.map eventOperatorReset = cls.stopOn.map eventOperatorReset

/-- An override with an error takes the class away from its file, and leaves in
the class what the stanzas before the error made of it. -/
theorem badOverride_detaches {source : Nat} {path : String} {c : ClassId} {parsed : Parsed}
    (hfile : (w.confFile? source path).bind ConfFile.job = some c) (hbad : parsed.ok = false) :
    Sat (confReloadPath x w source path true (some parsed))
      (fun r => (r.1.confFile? source path).bind ConfFile.job = none ∧
        ∃ cls, r.1.classes.get? c = some cls ∧
          cls.config = { parsed.config with name := cls.config.name })
      (fun _ => True) := by
  unfold confReloadPath
  simp only [if_true, hfile, sat_bind]
  refine (parseJob_update hbad).imp ?_
  rintro ⟨w₁, _⟩ ⟨rfl, hfiles, cls, hcls, hconfig⟩
  have hfound := confFile?_putFile w₁ ⟨source, path, none⟩
  refine ⟨?_, cls, hcls, hconfig⟩
  show ((w₁.putFile ⟨source, path, none⟩).confFile? source path).bind ConfFile.job = none
  rw [hfound]
  rfl

/-- No override with an error is ignored, whatever the class, the file and the
place of the error. -/
theorem badOverride_not_ignored (x : Host) (parsed : Parsed) {source : Nat} {path : String}
    {c : ClassId} {ok : Bool} (hfile : (w.confFile? source path).bind ConfFile.job = some c)
    (hbad : parsed.ok = false)
    (hload : confReloadPath x w source path true (some parsed) = .ok (w', ok)) :
    ¬ Ignored w w' source path c := by
  intro h
  have hnone := ((badOverride_detaches hfile hbad).of_ok hload).1
  rw [h.attached] at hnone
  cases hnone

/-! ## A run -/

/-- A file that defines a class with a main process. -/
def plainParsed : Parsed where
  ok := true
  config := plainClass [.main]

/-- An override whose second stanza is unknown, after one that makes the class a
task. -/
def brokenParsed : Parsed where
  ok := false
  config := { plainClass [.main] with task := true }

/-- An override for a file that has been loaded on its own. -/
theorem badOverride_not_ignored_plain :
    ∃ w w' ok, WorldReached Anything w ∧
      (w.confFile? 0 "/one/a.conf").bind ConfFile.job = some 1 ∧
      confReloadPath plainHost w 0 "/one/a.conf" true (some brokenParsed) = .ok (w', ok) ∧
      ¬ Ignored w w' 0 "/one/a.conf" 1 := by
  have h₁ := (reached_newWorld Anything).next
    (.load 0 "/one/a.conf" (some plainParsed) none) ⟨trivial, trivial⟩ rfl
  exact ⟨_, _, _, h₁, rfl, rfl, badOverride_not_ignored plainHost brokenParsed rfl rfl rfl⟩

/-- With the override in place, the class is still registered, but is not the one
that is selected. -/
theorem badOverride_orphan :
    ∃ w, WorldReached Anything w ∧ w.getRegistered "a" = some 1 ∧
      (w.confFile? 0 "/one/a.conf").bind ConfFile.job = none ∧
      confSelectJob w "a" = .ok none ∧
      (w.classes.get? 1).map (fun cls => cls.config.task) = some true := by
  have h₁ := (reached_newWorld Anything).next
    (.load 0 "/one/a.conf" (some plainParsed) (some (some brokenParsed))) ⟨trivial, trivial⟩ rfl
  exact ⟨_, h₁, rfl, rfl, rfl, rfl⟩

end Startup
