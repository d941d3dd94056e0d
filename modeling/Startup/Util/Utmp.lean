import Startup.Lib.Sat
import Startup.Lib.Utmpx

/-!
# The records of run levels (`util/utmp.c`)

A run level is kept in the process id of a record: the level in the lower byte, the level before
it in the next.  `utmpxname` names the file that the functions of libc are about until it is called
again; a program begins with `utmp`.

* `utmpWriteRunlevel_eq`: what is written for a change, and when a missed reboot is assumed.
* `utmpReadRunlevel_write`: a level that has been written is read.
-/

namespace Startup.Utmp

open Lib Lib.Utmpx

/-! ## Files and the host -/

/-- The functions whose assertions can fail. -/
inductive SourceFn where
  | utmpWriteRunlevel
  | utmpEntry
  | sysvChangeRunlevel
  | nihErrorGet
  deriving DecidableEq, Repr

/-- An assertion of a function has failed. -/
inductive Fault where
  | assertFailed (fn : SourceFn)
  deriving DecidableEq, Repr

/-- What a program finds when it is run. -/
structure Host where
  getenv : String → Option String
  /-- the release of the kernel, where `uname` works -/
  release : Option String
  /-- the time at which a record of each type is made -/
  now : UtType → Int × Int
  /-- the files that can be written to -/
  writable : String → Bool

/-- The files of the database, and the one that `utmpxname` has named. -/
structure Files where
  name : String
  content : String → Option (List Record)

/-- `_PATH_UTMPX`. -/
def pathUtmpx : String := "/var/run/utmp"

/-- `_PATH_WTMPX`. -/
def pathWtmpx : String := "/var/log/wtmp"

namespace Files

/-- `utmpxname`. -/
def utmpxname (s : Files) (file : String) : Files :=
  { s with name := file }

/-- Replace a file. -/
def set (s : Files) (file : String) (records : List Record) : Files :=
  { s with content := fun f => if f = file then some records else s.content f }

/-- `getutxid` on the file that is named. -/
def get (s : Files) (key : Record) : Option Record :=
  (s.content s.name).bind fun records => getutxid records key

/-- `pututxline` on the file that is named, and whether it works. -/
def put (x : Host) (s : Files) (line : Record) : Files × Bool :=
  match s.content s.name with
  | none => (s, false)
  | some records =>
    if x.writable s.name then (s.set s.name (pututxline line records), true) else (s, false)

/-- `updwtmpx`, which tells nobody when it fails. -/
def append (x : Host) (s : Files) (file : String) (line : Record) : Files :=
  match s.content file with
  | none => s
  | some records => if x.writable file then s.set file (updwtmpx records line) else s

end Files

/-! ## Records -/

/-- The type that `utmp_entry` is asked for: one of those of the file, or `SHUTDOWN_TIME`. -/
inductive EntryType where
  | of (type : UtType)
  | shutdownTime
  deriving DecidableEq, Repr

/-- `strncpy` to an array of `n` characters. -/
def strncpy (s : String) (n : Nat) : String :=
  String.ofList (s.toList.take n)

/-- The fields that `utmp_entry` fills in for all types. -/
def fillEntry (x : Host) (type : UtType) (pid : Int) (line id user : String) : Record where
  type := type
  pid := pid
  line := strncpy line 32
  id := strncpy id 4
  user := strncpy user 32
  host := strncpy (x.release.getD "") 256
  time := x.now type

/-- `utmp_entry`. -/
def utmpEntry (x : Host) (type : EntryType) (pid : Int) (line id user : Option String) :
    Except Fault Record := do
  check (.assertFailed .utmpEntry) (type ≠ .of .empty)
  match type with
  | .of .bootTime => .ok (fillEntry x .bootTime 0 "~" "~~" "reboot")
  | .shutdownTime => .ok (fillEntry x .runLvl 0 "~" "~~" "shutdown")
  | .of .runLvl => do
    check (.assertFailed .utmpEntry) (pid ≠ 0)
    .ok (fillEntry x .runLvl pid "~" "~~" "runlevel")
  | .of type =>
    match line, id, user with
    | some line, some id, some user => .ok (fillEntry x type pid line id user)
    | _, _, _ => .error (.assertFailed .utmpEntry)

/-! ## Levels -/

/-- `'N'`, the level of a system that has none. -/
def levelNone : Int := 78

/-- `n ?: 'N'`, and `'N'` where that is negative. -/
def orNone (n : Int) : Int :=
  let n := if n = 0 then levelNone else n
  if n < 0 then levelNone else n

/-- The key for the record of a run level. -/
def runLvlKey : Record where
  type := .runLvl
  pid := 0
  line := ""
  id := ""
  user := ""
  host := ""
  time := (0, 0)

/-- `utmp_read_runlevel`: the level and the one before it, or none, with an error.  Without a
name the file is the one that has been named last. -/
def utmpReadRunlevel (s : Files) (utmpFile : Option String) : Files × Option (Int × Int) :=
  let s := match utmpFile with
    | some file => s.utmpxname file
    | none => s
  match s.get runLvlKey with
  | none => (s, none)
  | some lvl => (s, some (orNone (lvl.pid.tmod 256), orNone (lvl.pid.tdiv 256)))

/-- The first `char` of a text, which is signed; 0 is its end. -/
def firstChar (text : String) : Int :=
  match text.toList with
  | [] => 0
  | c :: _ => ((String.utf8EncodeChar c).headD 0).toInt8.toInt

/-- `utmp_get_runlevel`.  A level from the environment may be negative without an error. -/
def utmpGetRunlevel (x : Host) (s : Files) (utmpFile : Option String) :
    Files × Option (Int × Int) :=
  match x.getenv "RUNLEVEL" with
  | some renv =>
    let prevlevel := match x.getenv "PREVLEVEL" with
      | some penv => if firstChar penv ≠ 0 then firstChar penv else levelNone
      | none => levelNone
    (s, some (if firstChar renv ≠ 0 then firstChar renv else levelNone, prevlevel))
  | none => utmpReadRunlevel s utmpFile

/-! ## Writing -/

/-- `utmp_write`. -/
def utmpWrite (x : Host) (s : Files) (utmpFile : Option String) (utmp : Record) : Files × Bool :=
  (s.utmpxname (utmpFile.getD pathUtmpx)).put x utmp

/-- `wtmp_write`. -/
def wtmpWrite (x : Host) (s : Files) (wtmpFile : Option String) (utmp : Record) : Files :=
  s.append x (wtmpFile.getD pathWtmpx) utmp

/-- What `utmp_read_runlevel` returns. -/
def savedLevel (level : Option (Int × Int)) : Int :=
  match level with
  | some (runlevel, _) => runlevel
  | none => -1

/-- `utmp_write_runlevel`, and whether the record has been written to `utmp`. -/
def utmpWriteRunlevel (x : Host) (s : Files) (utmpFile wtmpFile : Option String)
    (runlevel prevlevel : Int) : Except Fault (Files × Bool) := do
  check (.assertFailed .utmpWriteRunlevel) (runlevel > 0)
  check (.assertFailed .utmpWriteRunlevel) (prevlevel ≥ 0)
  let prevlevel := if prevlevel = levelNone then 0 else prevlevel
  let reboot ← utmpEntry x (.of .bootTime) 0 none none none
  let (s, level) := utmpReadRunlevel s utmpFile
  let s := if savedLevel level ≠ prevlevel then (utmpWrite x s utmpFile reboot).1 else s
  let (s, level) := utmpReadRunlevel s wtmpFile
  let s := if savedLevel level ≠ prevlevel then wtmpWrite x s wtmpFile reboot else s
  let utmp ← utmpEntry x (.of .runLvl) (runlevel + prevlevel * 256) none none none
  let (s, ret) := utmpWrite x s utmpFile utmp
  .ok (wtmpWrite x s wtmpFile utmp, ret)

/-- `utmp_write_shutdown`, and whether the record has been written to `utmp`. -/
def utmpWriteShutdown (x : Host) (s : Files) (utmpFile wtmpFile : Option String) :
    Except Fault (Files × Bool) := do
  let utmp ← utmpEntry x .shutdownTime 0 none none none
  let (s, ret) := utmpWrite x s utmpFile utmp
  .ok (wtmpWrite x s wtmpFile utmp, ret)

/-! ## What the files hold -/

section

variable {x : Host} {s : Files} {line key : Record} {file : String}

namespace Files

@[simp] theorem put_name (x : Host) (s : Files) (line : Record) : (s.put x line).1.name = s.name := by
  unfold put
  split
  · rfl
  · split <;> rfl

@[simp] theorem append_name (x : Host) (s : Files) (file : String) (line : Record) :
    (s.append x file line).name = s.name := by
  unfold append
  split
  · rfl
  · split <;> rfl

theorem utmpxname_self (h : s.name = file) : s.utmpxname file = s := by
  subst h
  rfl

/-- A key finds in `utmp` what it found, when a record of another kind is written. -/
theorem get_put_other (hother : ∀ e, sought line e = true → sought key e = false)
    (hself : sought line line = true) : (s.put x line).1.get key = s.get key := by
  unfold put
  split
  · rfl
  · rename_i records hrecords
    split
    · simp only [get, set, if_true, hrecords, Option.bind_some]
      exact getutxid_pututxline_other records hother hself
    · rfl

/-- A key finds in one file what it found, when another one is appended to. -/
theorem get_append (h : s.name ≠ file) : (s.append x file line).get key = s.get key := by
  unfold append
  split
  · rfl
  · split
    · simp [get, set, h]
    · rfl

/-- What has been written is found. -/
theorem get_put (hkey : ∀ e, sought line e = sought key e) (hself : sought line line = true)
    (hput : (s.put x line).2 = true) : (s.put x line).1.get key = some line := by
  unfold put at hput ⊢
  split
  · rename_i hnone
    simp [hnone] at hput
  · rename_i records hrecords
    split
    · simp only [get, set, if_true, Option.bind_some]
      exact getutxid_pututxline records hkey hself
    · rename_i hwritable
      simp [hrecords, hwritable] at hput

end Files

/-! ## One change -/

/-- The record of a boot. -/
def rebootRecord (x : Host) : Record := fillEntry x .bootTime 0 "~" "~~" "reboot"

/-- The record of a change. -/
def changeRecord (x : Host) (runlevel prevlevel : Int) : Record :=
  fillEntry x .runLvl (runlevel + prevlevel * 256) "~" "~~" "runlevel"

/-- The record of a shutdown. -/
def shutdownRecord (x : Host) : Record := fillEntry x .runLvl 0 "~" "~~" "shutdown"

/-- The level before, as it is written down. -/
def written (prevlevel : Int) : Int := if prevlevel = levelNone then 0 else prevlevel

theorem pathUtmpx_ne : pathUtmpx ≠ pathWtmpx := by decide

theorem utmpReadRunlevel_default (s : Files) :
    utmpReadRunlevel s none = (s, (s.get runLvlKey).map fun lvl =>
      (orNone (lvl.pid.tmod 256), orNone (lvl.pid.tdiv 256))) := by
  unfold utmpReadRunlevel
  cases h : s.get runLvlKey <;> simp [h]

/-- A missed reboot is assumed. -/
def Files.missed (s : Files) (prevlevel : Int) : Bool :=
  savedLevel (utmpReadRunlevel s none).2 ≠ written prevlevel

/-- Where a missed reboot is assumed, its record is written to both files. -/
def Files.recover (x : Host) (s : Files) (prevlevel : Int) : Files :=
  if s.missed prevlevel then (s.put x (rebootRecord x)).1.append x pathWtmpx (rebootRecord x) else s

/-- With the files that the programs name, `wtmp` is not read: a reboot is written to it when one
is written to `utmp`. -/
theorem utmpWriteRunlevel_eq (hname : s.name = pathUtmpx) {runlevel prevlevel : Int}
    (hr : 0 < runlevel) (hp : 0 ≤ prevlevel) :
    utmpWriteRunlevel x s none none runlevel prevlevel =
      let put := (s.recover x prevlevel).put x (changeRecord x runlevel (written prevlevel))
      .ok (put.1.append x pathWtmpx (changeRecord x runlevel (written prevlevel)), put.2) := by
  have hother (e : Record) (he : sought (rebootRecord x) e = true) : sought runLvlKey e = false := by
    rw [sought_single rfl, decide_eq_true_eq] at he
    rw [sought_single rfl, he]
    rfl
  have hget : (s.put x (rebootRecord x)).1.get runLvlKey = s.get runLvlKey :=
    Files.get_put_other hother (sought_self (.inl rfl))
  have hpid : runlevel + written prevlevel * 256 ≠ 0 := by
    have hwritten : 0 ≤ written prevlevel := by
      unfold written
      split <;> omega
    omega
  have hchange : utmpEntry x (.of .runLvl) (runlevel + written prevlevel * 256) none none none =
      .ok (changeRecord x runlevel (written prevlevel)) := by
    simp only [utmpEntry, hpid, changeRecord, ne_eq, not_false_eq_true, decide_true, reduceCtorEq,
      EntryType.of.injEq, check_true]
    rfl
  have hwrite (t : Files) (ht : t.name = pathUtmpx) (r : Record) :
      utmpWrite x t none r = t.put x r := by
    show (t.utmpxname pathUtmpx).put x r = _
    rw [Files.utmpxname_self ht]
  have hboot : utmpEntry x (.of .bootTime) 0 none none none = .ok (rebootRecord x) := rfl
  have hread (t : Files) (ht : t.get runLvlKey = s.get runLvlKey) :
      savedLevel (utmpReadRunlevel t none).2 = savedLevel (utmpReadRunlevel s none).2 := by
    rw [utmpReadRunlevel_default, utmpReadRunlevel_default, ht]
  have hfst (t : Files) : (utmpReadRunlevel t none).1 = t := by rw [utmpReadRunlevel_default]
  have hchecks : decide (runlevel > 0) = true ∧ decide (prevlevel ≥ 0) = true := by simp [hr, hp]
  unfold utmpWriteRunlevel
  simp only [hchecks, check_true, hboot]
  show (do
    let utmp ← utmpEntry x (.of .runLvl) (runlevel + written prevlevel * 256) none none none
    _ : Except Fault (Files × Bool)) = _
  rw [hchange]
  show (.ok (wtmpWrite x _ none _, _) : Except Fault (Files × Bool)) = _
  -- the second reading finds what the first one found
  have hrecover : (
      let t := if savedLevel (utmpReadRunlevel s none).2 ≠ written prevlevel then
        (utmpWrite x (utmpReadRunlevel s none).1 none (rebootRecord x)).1
        else (utmpReadRunlevel s none).1
      if savedLevel (utmpReadRunlevel t none).2 ≠ written prevlevel then
        wtmpWrite x (utmpReadRunlevel t none).1 none (rebootRecord x)
      else (utmpReadRunlevel t none).1) = s.recover x prevlevel := by
    dsimp only
    rw [hfst, hfst, hwrite s hname]
    unfold Files.recover Files.missed
    by_cases hmissed : savedLevel (utmpReadRunlevel s none).2 ≠ written prevlevel
    · rw [if_pos hmissed, hread _ hget, if_pos hmissed, if_pos (by simpa using hmissed)]
      rfl
    · rw [if_neg hmissed, if_neg hmissed, if_neg (by simpa using hmissed)]
  have hname' : (s.recover x prevlevel).name = pathUtmpx := by
    unfold Files.recover
    split <;> simp [hname]
  rw [← hwrite _ hname', ← hrecover]
  rfl

theorem orNone_pos {n : Int} (h : 0 < n) : orNone n = n := by
  have hne : n ≠ 0 := by omega
  have hnot : ¬n < 0 := by omega
  simp [orNone, hne, hnot]

/-- The levels of a record are those that it has been made of. -/
theorem changeRecord_levels (x : Host) {runlevel prevlevel : Int} (hr : 0 < runlevel)
    (hmax : runlevel < 256) (hp : 0 ≤ prevlevel) :
    (changeRecord x runlevel prevlevel).pid.tmod 256 = runlevel ∧
      (changeRecord x runlevel prevlevel).pid.tdiv 256 = prevlevel := by
  have hpid : (changeRecord x runlevel prevlevel).pid = runlevel + prevlevel * 256 := rfl
  rw [hpid, Int.tmod_eq_emod_of_nonneg (by omega), Int.tdiv_eq_ediv_of_nonneg (by omega)]
  omega

/-- The file that has been written to tells the level and the one before it. -/
theorem utmpReadRunlevel_write (hname : s.name = pathUtmpx) {runlevel prevlevel : Int}
    (hr : 0 < runlevel) (hmax : runlevel < 256) (hp : 0 ≤ prevlevel) {s' : Files}
    (h : utmpWriteRunlevel x s none none runlevel prevlevel = .ok (s', true)) :
    (utmpReadRunlevel s' none).2 = some (runlevel, orNone (written prevlevel)) := by
  rw [utmpWriteRunlevel_eq hname hr hp] at h
  simp only [Except.ok.injEq, Prod.mk.injEq] at h
  obtain ⟨rfl, hput⟩ := h
  have hname' : (s.recover x prevlevel).name = pathUtmpx := by
    unfold Files.recover
    split <;> simp [hname]
  have hwritten : 0 ≤ written prevlevel := by
    unfold written
    split <;> omega
  have hkey (e : Record) : sought (changeRecord x runlevel (written prevlevel)) e =
      sought runLvlKey e := by
    rw [sought_single rfl, sought_single rfl]
    rfl
  rw [utmpReadRunlevel_default, Files.get_append (by simp [hname', pathUtmpx_ne]),
    Files.get_put hkey (sought_self (.inl rfl)) hput]
  obtain ⟨hmod, hdiv⟩ := changeRecord_levels x hr hmax hwritten
  rw [Option.map_some, hmod, hdiv, orNone_pos hr]

/-- From a file that records are appended to the oldest level is read for ever, not the most
recent one. -/
theorem utmpReadRunlevel_append {level : Int × Int} (line : Record)
    (h : (utmpReadRunlevel s (some file)).2 = some level) :
    (utmpReadRunlevel (s.append x file line) (some file)).2 = some level := by
  have hread (t : Files) : (utmpReadRunlevel t (some file)).2 =
      ((t.content file).bind fun records => getutxid records runLvlKey).map fun lvl =>
        (orNone (lvl.pid.tmod 256), orNone (lvl.pid.tdiv 256)) := by
    have hget : (t.utmpxname file).get runLvlKey =
        (t.content file).bind fun records => getutxid records runLvlKey := rfl
    unfold utmpReadRunlevel
    dsimp only
    rw [hget]
    cases (t.content file).bind fun records => getutxid records runLvlKey <;> rfl
  rw [hread] at h ⊢
  unfold Files.append
  cases hcontent : s.content file with
  | none => simp [hcontent] at h
  | some records =>
    rw [hcontent] at h
    obtain ⟨lvl, hlvl, hlevel⟩ := Option.map_eq_some_iff.mp h
    dsimp only
    split
    · simp only [Files.set, if_true, Option.bind_some]
      rw [getutxid_updwtmpx line hlvl, Option.map_some, hlevel]
    · rw [hcontent]
      exact h

end

end Startup.Utmp
