import Startup.Lib.PathText
import Startup.World.Runs

/-!
# Names of log files (`init/job_process.c`)

The log of a job is a file of the log directory that is called after the class and the instance.

* `jobProcessLogPath`: the path.
* `joined`: its last component without the extension.
* `joined_eq_iff`: when two pairs of names are joined to the same text.
* `logPath_eq_iff`: when two jobs have the same log.
-/

namespace Startup

open Lib

/-! ## The path -/

/-- The options of init that name the directory of the logs. -/
structure LogSettings where
  userMode : Bool
  logDir : Option String

/-- `JOB_LOGDIR`. -/
def jobLogdir : String := "/var/log/startup"

/-- `JOB_PROCESS_LOG_REMAP_FROM_CHAR` becomes `JOB_PROCESS_LOG_REMAP_TO_CHAR`. -/
def logRemap (c : Char) : Char := if c = '/' then '_' else c

/-- The directory, which `LOGDIR_ENV` overrides. -/
def logDirectory (x : Host) (s : LogSettings) : String :=
  match x.getenv "UPSTART_LOGDIR" with
  | some dir => if s.userMode then s.logDir.getD jobLogdir else dir
  | none => s.logDir.getD jobLogdir

/-- `job_process_log_path`. -/
def jobProcessLogPath (x : Host) (s : LogSettings) (cls : JobClass) (job : Job) : String :=
  let dir := logDirectory x s
  let className := String.ofList (cls.name.toList.map logRemap)
  if job.name ≠ "" then
    let instanceName := String.ofList (job.name.toList.map logRemap)
    dir ++ "/" ++ className ++ "-" ++ instanceName ++ ".log"
  else dir ++ "/" ++ className ++ ".log"

/-! ## Joined names -/

/-- A class and an instance, joined with a hyphen where there is an instance. -/
def joined (c i : Text) : Text := if i = [] then c else c ++ '-' :: i

/-- The one class name goes on with a hyphen, and what stands behind it is the beginning of the
other instance name. -/
def Overlaps (c i c' i' : Text) : Prop :=
  ∃ t, c' = c ++ '-' :: t ∧ i = joined t i' ∧ i ≠ []

variable {c i c' i' : Text}

theorem Overlaps.joined_eq (h : Overlaps c i c' i') : joined c i = joined c' i' := by
  obtain ⟨t, rfl, hi, hne⟩ := h
  rw [joined, if_neg hne, hi]
  unfold joined
  split
  · rfl
  · simp

/-- Two texts with a hyphen somewhere are the same: the hyphens are the same one, or one of them
comes first. -/
theorem append_hyphen_eq (h : c ++ '-' :: i = c' ++ '-' :: i') :
    (c = c' ∧ i = i') ∨ (∃ t, c' = c ++ '-' :: t ∧ i = t ++ '-' :: i') ∨
      ∃ t, c = c' ++ '-' :: t ∧ i' = t ++ '-' :: i := by
  rcases List.append_eq_append_iff.mp h with ⟨u, hc, hu⟩ | ⟨u, hc, hu⟩
  · cases u with
    | nil =>
      have hi : i = i' := by simpa using hu
      rw [List.append_nil] at hc
      exact .inl ⟨hc.symm, hi⟩
    | cons d t =>
      obtain ⟨rfl, hi⟩ := List.cons.inj hu
      exact .inr (.inl ⟨t, hc, hi⟩)
  · cases u with
    | nil =>
      have hi : i' = i := by simpa using hu
      rw [List.append_nil] at hc
      exact .inl ⟨hc, hi.symm⟩
    | cons d t =>
      obtain ⟨rfl, hi⟩ := List.cons.inj hu
      exact .inr (.inr ⟨t, hc, hi⟩)

/-- The same text is joined from the same names, or from names of which one class name takes in
a part of the other instance name. -/
theorem joined_eq_iff :
    joined c i = joined c' i' ↔
      (c = c' ∧ i = i') ∨ Overlaps c i c' i' ∨ Overlaps c' i' c i := by
  constructor
  · intro h
    by_cases hi : i = []
    · by_cases hi' : i' = []
      · rw [joined, joined, if_pos hi, if_pos hi'] at h
        exact .inl ⟨h, hi.trans hi'.symm⟩
      · rw [joined, joined, if_pos hi, if_neg hi'] at h
        have hjoined : i' = joined i' i := by rw [joined, if_pos hi]
        exact .inr (.inr ⟨i', h, hjoined, hi'⟩)
    · by_cases hi' : i' = []
      · rw [joined, joined, if_neg hi, if_pos hi'] at h
        have hjoined : i = joined i i' := by rw [joined, if_pos hi']
        exact .inr (.inl ⟨i, h.symm, hjoined, hi⟩)
      · rw [joined, joined, if_neg hi, if_neg hi'] at h
        rcases append_hyphen_eq h with hsame | ⟨t, hc, ht⟩ | ⟨t, hc, ht⟩
        · exact .inl hsame
        · have hjoined : i = joined t i' := by rw [joined, if_neg hi', ht]
          exact .inr (.inl ⟨t, hc, hjoined, hi⟩)
        · have hjoined : i' = joined t i := by rw [joined, if_neg hi, ht]
          exact .inr (.inr ⟨t, hc, hjoined, hi'⟩)
  · intro h
    rcases h with ⟨rfl, rfl⟩ | h | h
    · rfl
    · exact h.joined_eq
    · exact h.joined_eq.symm

/-- Class names without a hyphen overlap with nothing. -/
theorem joined_inj (hc : '-' ∉ c) (hc' : '-' ∉ c') (h : joined c i = joined c' i') :
    c = c' ∧ i = i' := by
  rcases joined_eq_iff.mp h with h | ⟨t, rfl, -⟩ | ⟨t, rfl, -⟩
  · exact h
  · exact absurd (by simp) hc'
  · exact absurd (by simp) hc

/-! ## Paths of jobs -/

variable (x : Host) (s : LogSettings) (cls cls' : JobClass) (job job' : Job)

/-- The name of a class or an instance as it stands in a path. -/
def logName (name : String) : Text := name.toList.map logRemap

/-- The name of the log file of a job. -/
def logFileName : Text := joined (logName cls.name) (logName job.name) ++ ".log".toList

theorem jobProcessLogPath_toList :
    (jobProcessLogPath x s cls job).toList =
      (logDirectory x s).toList ++ '/' :: logFileName cls job := by
  unfold jobProcessLogPath logFileName joined logName
  by_cases hname : job.name = ""
  · simp [hname]
  · have hne : job.name.toList ≠ [] := by simpa using hname
    simp [hname]

/-- A log file name is a component of a path. -/
theorem isName_logFileName : IsName (logFileName cls job) := by
  have hremap : ∀ name : String, '/' ∉ logName name := by
    intro name hmem
    obtain ⟨c, -, hc⟩ := List.mem_map.mp hmem
    unfold logRemap at hc
    split at hc
    · exact absurd hc (by decide)
    · contradiction
  have hjoined : '/' ∉ joined (logName cls.name) (logName job.name) := by
    unfold joined
    split
    · exact hremap _
    · simp [hremap]
  have hlength : 4 ≤ (logFileName cls job).length := by simp [logFileName]
  refine ⟨?_, ?_, ?_, ?_⟩
  · intro h
    simp [h] at hlength
  · simp [logFileName, hjoined]
  · intro h
    simp [h] at hlength
  · intro h
    simp [h] at hlength

theorem jobProcessLogPath_eq_joined :
    jobProcessLogPath x s cls job = jobProcessLogPath x s cls' job' ↔
      joined (logName cls.name) (logName job.name) =
        joined (logName cls'.name) (logName job'.name) := by
  rw [← String.toList_inj, jobProcessLogPath_toList, jobProcessLogPath_toList,
    List.append_cancel_left_eq, List.cons.injEq, logFileName, logFileName,
    List.append_cancel_right_eq]
  simp

/-- Every log is a file directly inside the log directory.  Two jobs have the same one exactly
when, with underscores for slashes, their names are the same or the one class name goes on with
a hyphen and a beginning of the other instance name. -/
theorem logPath_eq_iff :
    (∃ n, IsName n ∧ (jobProcessLogPath x s cls job).toList =
      (logDirectory x s).toList ++ '/' :: n) ∧
      (jobProcessLogPath x s cls job = jobProcessLogPath x s cls' job' ↔
        (logName cls.name = logName cls'.name ∧ logName job.name = logName job'.name) ∨
          Overlaps (logName cls.name) (logName job.name) (logName cls'.name)
            (logName job'.name) ∨
          Overlaps (logName cls'.name) (logName job'.name) (logName cls.name)
            (logName job.name)) := by
  refine ⟨⟨_, isName_logFileName cls job, jobProcessLogPath_toList x s cls job⟩, ?_⟩
  rw [← joined_eq_iff]
  exact jobProcessLogPath_eq_joined x s cls cls' job job'

/-- Without slashes, a name is itself. -/
theorem logName_eq_self {name : String} (h : '/' ∉ name.toList) : logName name = name.toList := by
  have hsame : ∀ c ∈ name.toList, logRemap c = c := by
    intro c hc
    have hne : c ≠ '/' := by
      intro heq
      rw [heq] at hc
      exact h hc
    rw [logRemap, if_neg hne]
  rw [logName, List.map_congr_left hsame, List.map_id']

/-- Names without slashes, with no hyphens in those of the classes, tell the logs apart. -/
theorem logPath_inj (hcls : '/' ∉ cls.name.toList ∧ '-' ∉ cls.name.toList)
    (hcls' : '/' ∉ cls'.name.toList ∧ '-' ∉ cls'.name.toList)
    (hjob : '/' ∉ job.name.toList) (hjob' : '/' ∉ job'.name.toList)
    (h : jobProcessLogPath x s cls job = jobProcessLogPath x s cls' job') :
    cls.name = cls'.name ∧ job.name = job'.name := by
  have hsame := (jobProcessLogPath_eq_joined x s cls cls' job job').mp h
  rw [logName_eq_self hcls.1, logName_eq_self hcls'.1, logName_eq_self hjob,
    logName_eq_self hjob'] at hsame
  obtain ⟨hc, hi⟩ := joined_inj hcls.2 hcls'.2 hsame
  exact ⟨String.toList_inj.mp hc, String.toList_inj.mp hi⟩

/-- Two files of a source, of which one is in a directory, are loaded and their jobs started:
both append to one log. -/
theorem logPath_shared :
    ∃ w cls cls' job job', WorldReached Anything w ∧
      (cls ∈ w.classes.items ∧ job ∈ w.jobs.items ∧ job.classId = cls.id) ∧
      (cls' ∈ w.classes.items ∧ job' ∈ w.jobs.items ∧ job'.classId = cls'.id) ∧
      (cls.config.name, job.name) ≠ (cls'.config.name, job'.name) ∧
      ∀ x s, jobProcessLogPath x s cls.config job = jobProcessLogPath x s cls'.config job' := by
  have hne : confToJobName "/one" "/one/foo/bar.conf" ≠
      confToJobName "/one" "/one/foo_bar.conf" := by
    decide
  have hlog : logName (confToJobName "/one" "/one/foo/bar.conf") =
      logName (confToJobName "/one" "/one/foo_bar.conf") := by
    decide
  have h₁ := (reached_newWorld Anything).next
    (.load 0 "/one/foo/bar.conf" (some plainParsed) none) ⟨trivial, trivial⟩ rfl
  have h₂ := h₁.next (.load 0 "/one/foo_bar.conf" (some plainParsed) none) ⟨trivial, trivial⟩ rfl
  have h₃ := h₂.next (.classStart 1 7 [] false) ⟨⟨_, .head _, rfl⟩, trivial⟩ rfl
  have h₄ := h₃.next (.classStart 2 8 [] false) ⟨⟨_, .tail _ (.head _), rfl⟩, trivial⟩ rfl
  refine ⟨_, _, _, _, _, h₄, ⟨.head _, .head _, rfl⟩,
    ⟨.tail _ (.head _), .tail _ (.head _), rfl⟩, fun h => hne (Prod.mk.inj h).1, fun x s => ?_⟩
  refine (jobProcessLogPath_eq_joined x s _ _ _ _).mpr ?_
  exact joined_eq_iff.mpr (.inl ⟨hlog, rfl⟩)

end Startup
