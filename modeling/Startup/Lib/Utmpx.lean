import Mathlib.Data.List.Basic
import Mathlib.Tactic.Common

/-!
# The user accounting database (`utmpx.h`)

A file of the database is a list of records.  `pututxline` keeps at most one record of each kind
in `utmp`, where it writes over the one that there is; `updwtmpx` only ever appends to `wtmp`.

* `getutxid_pututxline`: what has been written is found.
* `getutxid_pututxline_other`, `filter_pututxline`: nothing else changes.
* `getutxid_updwtmpx`: an append hides nothing: the oldest record is found for ever.
-/

namespace Startup.Lib.Utmpx

/-- `ut_type`. -/
inductive UtType where
  | empty
  | runLvl
  | bootTime
  | newTime
  | oldTime
  | initProcess
  | loginProcess
  | userProcess
  | deadProcess
  | accounting
  deriving DecidableEq, Repr

/-- The types of which a file has one record at most. -/
def UtType.single : UtType → Bool
  | runLvl | bootTime | newTime | oldTime => true
  | _ => false

/-- The types of the records of a terminal line. -/
def UtType.process : UtType → Bool
  | initProcess | loginProcess | userProcess | deadProcess => true
  | _ => false

/-- `struct utmpx`. -/
structure Record where
  type : UtType
  pid : Int
  line : String
  id : String
  user : String
  host : String
  /-- `ut_tv`, in seconds and microseconds -/
  time : Int × Int
  deriving DecidableEq, Repr

/-- Whether `getutxid` stops at the record `e`: one of the same type, or, for a process, one of
the same terminal line. -/
def sought (key e : Record) : Bool :=
  if key.type.single then e.type = key.type
  else key.type.process && e.type.process && e.id = key.id

/-- `getutxid` after `setutxent`: the first record that matches. -/
def getutxid (file : List Record) (key : Record) : Option Record :=
  file.find? (sought key)

/-- `pututxline` after `setutxent`: the first record that matches is written over, and one is
added where there is none. -/
def pututxline (line : Record) : List Record → List Record
  | [] => [line]
  | e :: file => if sought line e then line :: file else e :: pututxline line file

/-- `updwtmpx`. -/
def updwtmpx (file : List Record) (line : Record) : List Record :=
  file ++ [line]

/-! ## What is found -/

variable {key line : Record}

theorem sought_single (h : key.type.single = true) (e : Record) :
    sought key e = decide (e.type = key.type) := by
  rw [sought, if_pos h]

theorem sought_self (h : line.type.single = true ∨ line.type.process = true) :
    sought line line = true := by
  unfold sought
  split
  · simp
  · rename_i hsingle
    simpa using h.resolve_left hsingle

/-- What has been written is found by a key for it. -/
theorem getutxid_pututxline (file : List Record) (hkey : ∀ e, sought line e = sought key e)
    (hself : sought line line = true) : getutxid (pututxline line file) key = some line := by
  have hline : sought key line = true := (hkey line).symm.trans hself
  induction file with
  | nil => simp [getutxid, pututxline, hline]
  | cons e file ih =>
    unfold pututxline
    split
    · simp [getutxid, hline]
    · rename_i he
      have he : sought key e = false := by simpa [hkey] using he
      rw [getutxid, List.find?_cons_of_neg (by simp [he])]
      exact ih

/-- A key for other records finds what it found. -/
theorem getutxid_pututxline_other (file : List Record)
    (hother : ∀ e, sought line e = true → sought key e = false) (hself : sought line line = true) :
    getutxid (pututxline line file) key = getutxid file key := by
  have hline := hother line hself
  induction file with
  | nil => simp [getutxid, pututxline, hline]
  | cons e file ih =>
    unfold pututxline
    split
    · rename_i he
      have he := hother e he
      simp [getutxid, hline, he]
    · cases he : sought key e with
      | true => simp [getutxid, he]
      | false =>
        rw [getutxid, getutxid, List.find?_cons_of_neg (by simp [he]),
          List.find?_cons_of_neg (by simp [he])]
        exact ih

/-- The records that are not written over stay, in their order. -/
theorem filter_pututxline (file : List Record) (P : Record → Bool)
    (hP : ∀ e, P e = true → sought line e = false) (hline : P line = false) :
    (pututxline line file).filter P = file.filter P := by
  induction file with
  | nil => simp [pututxline, hline]
  | cons e file ih =>
    unfold pututxline
    split
    · rename_i he
      have he : P e = false := by
        cases hp : P e with
        | false => rfl
        | true => simp [hP e hp] at he
      simp [hline, he]
    · cases he : P e <;> simp [he, ih]

/-- There is one record of the kind that has been written, if there was one at most. -/
theorem countP_pututxline (file : List Record) (hself : sought line line = true)
    (h : file.countP (sought line) ≤ 1) :
    (pututxline line file).countP (sought line) = 1 := by
  induction file with
  | nil => simp [pututxline, hself]
  | cons e file ih =>
    unfold pututxline
    split
    · rename_i he
      rw [List.countP_cons_of_pos he] at h
      rw [List.countP_cons_of_pos hself]
      omega
    · rename_i he
      rw [List.countP_cons_of_neg he] at h
      rw [List.countP_cons_of_neg he]
      exact ih h

/-- A file that has one record of each type at most that allows no more keeps to that. -/
theorem countP_pututxline_single {file : List Record} (hself : sought line line = true)
    {t : UtType} (ht : t.single = true) (h : file.countP (·.type = t) ≤ 1) :
    (pututxline line file).countP (·.type = t) ≤ 1 := by
  by_cases hline : line.type = t
  · have hsought : sought line = fun e => decide (e.type = t) := by
      funext e
      rw [sought_single (by rw [hline, ht]), hline]
    have hcount := countP_pututxline file hself (by rw [hsought]; exact h)
    rw [hsought] at hcount
    exact Nat.le_of_eq hcount
  · have hother (e : Record) (he : decide (e.type = t) = true) : sought line e = false := by
      have he : e.type = t := by simpa using he
      unfold sought
      split
      · simpa [he] using fun h => hline h.symm
      · have hprocess : e.type.process = false := by
          rw [he]
          cases t <;> simp_all [UtType.single, UtType.process]
        simp [hprocess]
    rw [List.countP_eq_length_filter, filter_pututxline file _ hother (by simpa using hline),
      ← List.countP_eq_length_filter]
    exact h

/-- The record that a file had first is found whatever is appended. -/
theorem getutxid_updwtmpx {file : List Record} {e : Record} (line : Record)
    (h : getutxid file key = some e) : getutxid (updwtmpx file line) key = some e := by
  rw [getutxid, updwtmpx, List.find?_append]
  rw [getutxid] at h
  rw [h]
  rfl

end Startup.Lib.Utmpx
