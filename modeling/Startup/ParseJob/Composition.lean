import Startup.ParseJob.CGroups

/-!
# Stanzas one after the other (`init/parse_job.c`)

What a file of accepted stanzas makes of a class, and what an override makes of it.

* `Line.Valid.does`: what one accepted stanza does.
* `parseFile_get`, `parseFile_list`, `parseFile_cgroups`: what a file of them does to a
  setting, to an array and to the control groups.
* `parseJob_composes`: the same for a new class, and for an override.
-/

namespace Startup.ParseJob

open Lib

/-- The stanza is accepted. -/
def Line.Valid (x : Setup) (line : Line) : Prop :=
  (parseStanza x (jobClassNew x) line).error = none

instance (x : Setup) (line : Line) : Decidable (line.Valid x) :=
  inferInstanceAs (Decidable (_ = none))

/-- What the stanza makes of a new class. -/
def Line.alone (x : Setup) (line : Line) : ClassSettings :=
  (parseStanza x (jobClassNew x) line).cls

/-- The last stanza for a setting. -/
def lastFor (x : Setup) (s : Setting) (file : List Line) : Option Line :=
  file.reverse.find? fun line => line.setting x = some s

variable {x : Setup} {c : ClassSettings} {line : Line} {file : List Line} {e : Effect}
  {s : Setting}

/-! ## One effect -/

theorem Effect.get_apply_of_ne (h : e.setting ≠ some s) (c : ClassSettings) :
    (e.apply c).get s = c.get s := by
  cases e with
  | put s' v =>
    have hne : s' ≠ s := fun heq => h (congrArg some heq)
    exact ClassSettings.get_put_of_ne c hne v
  | append a items => exact ClassSettings.get_append c items s
  | cgroup entry => cases s <;> rfl
  | skip => rfl

theorem Effect.get_apply_self (h : e.setting = some s) (c c' : ClassSettings) :
    (e.apply c).get s = (e.apply c').get s := by
  cases e with
  | put s' v =>
    obtain rfl : s' = s := Option.some.inj h
    exact (ClassSettings.get_put_self c v).trans (ClassSettings.get_put_self c' v).symm
  | append a items => cases h
  | cgroup entry => cases h
  | skip => cases h

theorem Effect.list_apply (e : Effect) (a : Additive) :
    ∃ items, ∀ c : ClassSettings, (e.apply c).list a = c.list a ++ items := by
  cases e with
  | put s v => exact ⟨[], fun c => by simp [Effect.apply]⟩
  | append a' items =>
    by_cases ha : a' = a
    · subst ha
      exact ⟨items, fun c => ClassSettings.list_append_self c items⟩
    · exact ⟨[], fun c => by simp [Effect.apply, ClassSettings.list_append_of_ne c ha]⟩
  | cgroup entry => exact ⟨[], fun c => by cases a <;> exact (List.append_nil _).symm⟩
  | skip => exact ⟨[], fun c => by simp [Effect.apply]⟩

theorem Effect.cgroups_apply (e : Effect) (es : List CGroupEntry)
    (h : c.cgroups = cgroupsOf es) : (e.apply c).cgroups = cgroupsOf (es ++ e.entry.toList) := by
  cases e with
  | put s v => simpa [Effect.apply, Effect.entry] using h
  | append a items => simpa [Effect.apply, Effect.entry] using h
  | cgroup entry =>
    show cgroupAdd c.cgroups .. = _
    rw [h]
    exact cgroupAdd_cgroupsOf es entry
  | skip => simpa [Effect.apply, Effect.entry] using h

/-! ## One stanza -/

/-- What an accepted stanza does, to every class. -/
theorem Line.Valid.does (h : line.Valid x) :
    ∃ e : Effect, e.setting = line.setting x ∧ e.entry = line.cgroup x ∧
      ∀ c, parseStanza x c line = ⟨none, e.apply c⟩ := by
  cases parseStanza_acts x line with
  | refuses hrefuses => exact absurd h (hrefuses _)
  | does e hs he hdoes => exact ⟨e, hs, he, hdoes⟩

/-! ## A file -/

theorem parseFile_append (file rest : List Line) (h : (parseFile x c file).error = none) :
    parseFile x c (file ++ rest) = parseFile x (parseFile x c file).cls rest := by
  induction file generalizing c with
  | nil => rfl
  | cons line file ih =>
    rw [List.cons_append, parseFile]
    rw [parseFile] at h
    cases hline : parseStanza x c line with
    | mk error c' =>
      rw [hline] at h
      cases error with
      | some e => cases h
      | none =>
        dsimp only at h ⊢
        rw [ih h, parseFile, hline]

/-- A file of accepted stanzas is accepted. -/
theorem parseFile_valid (h : ∀ line ∈ file, line.Valid x) (c : ClassSettings) :
    (parseFile x c file).error = none := by
  induction file generalizing c with
  | nil => rfl
  | cons line file ih =>
    obtain ⟨e, -, -, hdoes⟩ := (h line List.mem_cons_self).does
    rw [parseFile, hdoes]
    exact ih (fun line hline => h line (List.mem_cons_of_mem _ hline)) _

/-- One more stanza at the end. -/
theorem parseFile_concat (h : ∀ line ∈ file, line.Valid x) (hline : line.Valid x)
    (c : ClassSettings) :
    ∃ e : Effect, e.setting = line.setting x ∧ e.entry = line.cgroup x ∧
      (∀ c, parseStanza x c line = ⟨none, e.apply c⟩) ∧
      (parseFile x c (file ++ [line])).cls = e.apply (parseFile x c file).cls := by
  obtain ⟨e, hs, he, hdoes⟩ := hline.does
  refine ⟨e, hs, he, hdoes, ?_⟩
  rw [parseFile_append _ _ (parseFile_valid h c), parseFile, hdoes]
  rfl

/-- A setting has the value of the last stanza for it. -/
theorem parseFile_get (h : ∀ line ∈ file, line.Valid x) (c : ClassSettings) (s : Setting) :
    (parseFile x c file).cls.get s = ((lastFor x s file).elim c (Line.alone x)).get s := by
  induction file using List.reverseRecOn with
  | nil => rfl
  | append_singleton file line ih =>
    have hfile : ∀ l ∈ file, l.Valid x := fun l hl => h l (List.mem_append_left _ hl)
    have hline : line.Valid x := h line (by simp)
    obtain ⟨e, hs, -, hdoes, hcls⟩ := parseFile_concat hfile hline c
    rw [hcls]
    by_cases hset : line.setting x = some s
    · have hlast : lastFor x s (file ++ [line]) = some line := by simp [lastFor, hset]
      rw [hlast, Option.elim_some, Line.alone, hdoes]
      exact Effect.get_apply_self (hs.trans hset) _ _
    · have hlast : lastFor x s (file ++ [line]) = lastFor x s file := by simp [lastFor, hset]
      rw [hlast, Effect.get_apply_of_ne (hs ▸ hset)]
      exact ih hfile

/-- An array is appended to by each stanza as by that stanza alone. -/
theorem parseFile_list (h : ∀ line ∈ file, line.Valid x) (c : ClassSettings) (a : Additive) :
    (parseFile x c file).cls.list a = c.list a ++ file.flatMap fun l => (l.alone x).list a := by
  induction file using List.reverseRecOn with
  | nil => exact (List.append_nil _).symm
  | append_singleton file line ih =>
    have hfile : ∀ l ∈ file, l.Valid x := fun l hl => h l (List.mem_append_left _ hl)
    have hline : line.Valid x := h line (by simp)
    obtain ⟨e, -, -, hdoes, hcls⟩ := parseFile_concat hfile hline c
    obtain ⟨items, hitems⟩ := e.list_apply a
    have hnew : (jobClassNew x).list a = [] := by cases a <;> rfl
    have halone : (line.alone x).list a = items := by
      rw [Line.alone, hdoes]
      exact (hitems _).trans (by rw [hnew]; rfl)
    rw [hcls, hitems, ih hfile, List.flatMap_append, List.append_assoc]
    simp [halone]

/-- The control groups are those of all entries. -/
theorem parseFile_cgroups (h : ∀ line ∈ file, line.Valid x) {es : List CGroupEntry}
    (hc : c.cgroups = cgroupsOf es) :
    (parseFile x c file).cls.cgroups = cgroupsOf (es ++ file.filterMap (Line.cgroup x)) := by
  induction file using List.reverseRecOn with
  | nil => simpa [parseFile] using hc
  | append_singleton file line ih =>
    have hfile : ∀ l ∈ file, l.Valid x := fun l hl => h l (List.mem_append_left _ hl)
    have hline : line.Valid x := h line (by simp)
    obtain ⟨e, -, he, -, hcls⟩ := parseFile_concat hfile hline c
    have hentry : [line].filterMap (Line.cgroup x) = (line.cgroup x).toList := by
      cases hcgroup : line.cgroup x <;> simp [hcgroup]
    rw [hcls, Effect.cgroups_apply e _ (ih hfile), he, List.filterMap_append, List.append_assoc,
      hentry]

/-! ## A class -/

/-- Of a file of accepted stanzas, `parse_job` makes a class each of whose settings is that of
the last stanza for it, whose arrays are appended to in the order of the stanzas, and whose
control groups are those of all entries; and an override makes of that class what the two files
make as one. -/
theorem parseJob_composes (x : Setup) (base override : List Line)
    (hbase : ∀ line ∈ base, line.Valid x) (hoverride : ∀ line ∈ override, line.Valid x) :
    ∃ c, parseJob x none base = some c ∧
      (∀ s, c.get s = ((lastFor x s base).elim (jobClassNew x) (Line.alone x)).get s) ∧
      (∀ a, c.list a = base.flatMap fun line => (line.alone x).list a) ∧
      c.cgroups = cgroupsOf (base.filterMap (Line.cgroup x)) ∧
      parseJob x (some c) override = parseJob x none (base ++ override) ∧
      (parseJob x (some c) override).isSome := by
  have hparse : ∀ (update : Option ClassSettings) (file : List Line),
      (∀ line ∈ file, line.Valid x) →
      parseJob x update file = some (parseFile x (update.getD (jobClassNew x)) file).cls := by
    intro update file h
    have herror := parseFile_valid h (update.getD (jobClassNew x))
    unfold parseJob
    cases hfile : parseFile x (update.getD (jobClassNew x)) file with
    | mk error c =>
      rw [hfile] at herror
      cases herror
      rfl
  have hboth : ∀ line ∈ base ++ override, line.Valid x := by
    intro line hline
    rcases List.mem_append.mp hline with hline | hline
    · exact hbase line hline
    · exact hoverride line hline
  have hnew : (jobClassNew x).cgroups = cgroupsOf [] := rfl
  refine ⟨_, hparse none base hbase, fun s => parseFile_get hbase _ s, fun a => ?_,
    parseFile_cgroups hbase hnew, ?_, ?_⟩
  · have hnil : (jobClassNew x).list a = [] := by cases a <;> rfl
    exact (parseFile_list hbase _ a).trans (by rw [Option.getD_none, hnil]; rfl)
  · rw [hparse _ _ hoverride, hparse _ _ hboth, parseFile_append _ _ (parseFile_valid hbase _)]
    rfl
  · rw [hparse _ _ hoverride]
    rfl

/-- A job with a start condition and a nice level, and its override. -/
def niceJob : List Line := [
  { stanza := "start", words := [⟨"on", "on"⟩, ⟨"net", "net"⟩], condition := [.word "net"] },
  { stanza := "nice", words := [⟨"5", "5"⟩] },
  { stanza := "exec", words := [⟨"daemon", "daemon"⟩] }]

def niceOverride : List Line := [
  { stanza := "manual", words := [] },
  { stanza := "nice", words := [⟨"7", "7"⟩] }]

theorem parseJob_composes_nice :
    ∃ c, parseJob plainSetup none niceJob = some c ∧
      (∀ s, c.get s = ((lastFor plainSetup s niceJob).elim (jobClassNew plainSetup)
        (Line.alone plainSetup)).get s) ∧
      (∀ a, c.list a = niceJob.flatMap fun line => (line.alone plainSetup).list a) ∧
      c.cgroups = cgroupsOf (niceJob.filterMap (Line.cgroup plainSetup)) ∧
      parseJob plainSetup (some c) niceOverride =
        parseJob plainSetup none (niceJob ++ niceOverride) ∧
      (parseJob plainSetup (some c) niceOverride).isSome :=
  parseJob_composes plainSetup niceJob niceOverride (by decide) (by decide)

/-- The settings of a control group, each with its controller and name. -/
def CGroup.entries (g : CGroup) : List (String × String × String × Option String) :=
  g.names.flatMap fun n => n.settings.map fun s => (g.controller, n.name, s.key, s.value)

/-- A memory limit, given twice. -/
def memoryLimits : List Line := [
  { stanza := "cgroup",
    words := [⟨"memory", "memory"⟩, ⟨"limit_in_bytes", "limit_in_bytes"⟩, ⟨"1", "1"⟩] },
  { stanza := "cgroup",
    words := [⟨"memory", "memory"⟩, ⟨"limit_in_bytes", "limit_in_bytes"⟩, ⟨"2", "2"⟩] }]

/-- The second limit replaces the first one. -/
theorem cgroup_not_accumulated :
    (∀ line ∈ memoryLimits, line.Valid plainSetup) ∧
      ∃ c, parseJob plainSetup none memoryLimits = some c ∧
        c.cgroups.flatMap CGroup.entries ≠ memoryLimits.flatMap fun line =>
          (line.alone plainSetup).cgroups.flatMap CGroup.entries := by
  constructor
  · decide
  · exact ⟨_, rfl, by decide⟩

end Startup.ParseJob
