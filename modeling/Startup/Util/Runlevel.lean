import Mathlib.Data.List.Forall2
import Startup.Lib.Run
import Startup.Util.Utmp

/-!
# Changes of the run level (`util/sysv.c`, `util/telinit.c`, `util/shutdown.c`, `util/reboot.c`)

`telinit` and `shutdown` change the run level, `reboot` writes down that the machine stops, and
`runlevel` tells the level.  They share nothing but `utmp`, `wtmp` and the connection to init.

* `sysvChangeRunlevel`: one change, as `telinit` and `shutdown` make it.
* `Note`, `Stage`: `wtmp` as a journal: a reboot before the first change, and every other change
  from the level of the one before it.
* `reached_journal`: it is one after any sequence of these programs.
-/

namespace Startup.Utmp

open Lib Lib.Utmpx

/-! ## A change -/

/-- How the calls of D-Bus come out. -/
structure Bus where
  /-- `dbus_connection_open` -/
  connects : Bool
  /-- `nih_dbus_proxy_new` -/
  proxy : Bool
  /-- `upstart_emit_event` -/
  sends : Bool
  /-- init accepts the event -/
  accepts : Bool

/-- `%c`. -/
def charText (n : Int) : String :=
  String.singleton (Char.ofNat (n % 256).toNat)

/-- `sysv_change_runlevel`: the environment of the event that has been sent, and whether all has
gone well. -/
def sysvChangeRunlevel (x : Host) (bus : Bus) (s : Files) (runlevel : Int)
    (extraEnv : List String) (utmpFile wtmpFile : Option String) :
    Except Fault (Files × Option (List String) × Bool) := do
  check (.assertFailed .sysvChangeRunlevel) (runlevel > 0)
  let (s, level) := utmpGetRunlevel x s utmpFile
  -- no error has been raised for a level from the environment
  check (.assertFailed .nihErrorGet) (level.all fun l => l.1 ≥ 0)
  let prevlevel := match level with
    | some (prevlevel, _) => prevlevel
    | none => levelNone
  if !bus.connects || !bus.proxy then .ok (s, none, false)
  else
    let env := ["RUNLEVEL=" ++ charText runlevel, "PREVLEVEL=" ++ charText prevlevel] ++ extraEnv
    let (s, _) ← utmpWriteRunlevel x s utmpFile wtmpFile runlevel prevlevel
    if !bus.sends then .ok (s, none, false) else .ok (s, some env, bus.accepts)

/-! ## The programs -/

/-- A character as an `int`. -/
def code (c : Char) : Int := c.toNat

/-- What `main` of `telinit` does with its argument. -/
inductive TelinitCall where
  | missing
  | illegal
  | change (runlevel : Int)
  /-- `SIGHUP` to init -/
  | reload
  /-- `restart_upstart` -/
  | restart
  deriving DecidableEq, Repr

/-- `main` of `telinit`.  Behind an empty argument the source reads past its end. -/
def telinitMain : Option String → TelinitCall
  | none => .missing
  | some text =>
    match text.toList with
    | [c] =>
      if c ∈ ['0', '1', '2', '3', '4', '5', '6'] then .change (code c)
      else if c = 'S' ∨ c = 's' then .change (code 'S')
      else if c = 'Q' ∨ c = 'q' then .reload
      else if c = 'U' ∨ c = 'u' then .restart
      else .illegal
    | _ => .illegal

/-- `runlevel_option`: the level and the value of `INIT_HALT`. -/
def runlevelOption (value : Int × Option String) : Char → Int × Option String
  | 'r' => (code '6', none)
  | 'h' => (code '0', none)
  | 'H' => (code '0', some "HALT")
  | 'P' => (code '0', some "POWEROFF")
  | _ => value

/-- The level that `main` of `shutdown` takes from its options, and `INIT_HALT`. -/
def shutdownLevel (options : List Char) : Int × Option String :=
  let value := options.foldl runlevelOption (0, none)
  if value.1 = 0 then (code '1', none) else value

/-- `shutdown_now`, as far as init answers. -/
def shutdownNow (x : Host) (bus : Bus) (s : Files) (options : List Char) :
    Except Fault (Files × Option (List String) × Bool) :=
  let (runlevel, initHalt) := shutdownLevel options
  sysvChangeRunlevel x bus s runlevel (initHalt.toList.map ("INIT_HALT=" ++ ·)) none none

/-- The operation modes of `reboot`. -/
inductive Mode where
  | reboot
  | halt
  | poweroff
  | rebootCommand (command : String)
  deriving DecidableEq, Repr

/-- The name that `reboot` is called by, its options and its first argument. -/
structure RebootArgs where
  programName : String
  noSync : Bool
  force : Bool
  poweroff : Bool
  exitOnly : Bool
  arg : Option String

/-- What `main` of `reboot` comes to. -/
inductive RebootCall where
  /-- `shutdown` is executed with these options and `now` -/
  | shutdown (options : List Char)
  /-- only the record has been written -/
  | recorded
  /-- the system call -/
  | syscall (sync : Bool) (mode : Mode)
  deriving DecidableEq, Repr

/-- The options of `shutdown` for a mode. -/
def Mode.options : Mode → List Char
  | reboot | rebootCommand _ => ['r']
  | halt => ['h', 'H']
  | poweroff => ['h', 'P']

/-- `main` of `reboot`. -/
def rebootMain (x : Host) (s : Files) (a : RebootArgs) : Except Fault (Files × RebootCall) := do
  let mode := if a.programName = "halt" then Mode.halt
    else if a.programName = "poweroff" then .poweroff else .reboot
  let (s, level) := utmpGetRunlevel x s none
  check (.assertFailed .nihErrorGet) (level.all fun l => l.1 ≥ 0)
  let force := a.force || level.any fun l => l.1 = code '0' || l.1 = code '6'
  let mode := if mode = .halt && a.poweroff then .poweroff else mode
  let mode := match a.arg with
    | some command => if mode = .reboot && force then .rebootCommand command else mode
    | none => mode
  if !force && !a.exitOnly then .ok (s, .shutdown mode.options)
  else
    let (s, _) ← utmpWriteShutdown x s none none
    if a.exitOnly then .ok (s, .recorded) else .ok (s, .syscall (!a.noSync) mode)

/-- What `main` of `runlevel` prints: the level before and the level, or that it is unknown. -/
def runlevelMain (x : Host) (s : Files) (utmpFile : Option String) : Option (Int × Int) :=
  match (utmpGetRunlevel x s utmpFile).2 with
  | none => none
  | some (runlevel, prevlevel) =>
    if runlevel = levelNone then none else some (prevlevel, runlevel)

/-! ## A system -/

/-- The files, and the environments of the `runlevel` events that init has been sent. -/
structure System where
  content : String → Option (List Record)
  events : List (List String)

/-- What happens to the records of a system. -/
inductive Command where
  | telinit (arg : Option String) (extraEnv : List String)
  /-- the time of a `shutdown` has come -/
  | shutdown (options : List Char)
  | reboot (args : RebootArgs)
  /-- another program writes a record of a terminal line to both files -/
  | login (line : Record)
  /-- `utmp` is empty when the machine has booted -/
  | boot

/-- The files as a program finds them. -/
def System.files (sys : System) : Files := ⟨pathUtmpx, sys.content⟩

/-- What a change of the run level leaves. -/
def System.after (sys : System) (r : Files × Option (List String) × Bool) : System :=
  ⟨r.1.content, sys.events ++ r.2.1.toList⟩

/-- One program is run, or the machine boots. -/
def run (sys : System) (i : Host × Bus × Command) : Except Fault System :=
  let (x, bus, command) := i
  match command with
  | .telinit arg extraEnv =>
    match telinitMain arg with
    | .change runlevel => do
      let r ← sysvChangeRunlevel x bus sys.files runlevel extraEnv none none
      .ok (sys.after r)
    | _ => .ok sys
  | .shutdown options => do
    let r ← shutdownNow x bus sys.files options
    .ok (sys.after r)
  | .reboot args => do
    let (s, call) ← rebootMain x sys.files args
    match call with
    | .shutdown options => do
      let r ← shutdownNow x bus sys.files options
      .ok (sys.after r)
    | _ => .ok { sys with content := s.content }
  | .login line => .ok { sys with content :=
      ((sys.files.put x line).1.append x pathWtmpx line).content }
  | .boot => .ok { sys with content := (sys.files.set pathUtmpx []).content }

/-! ## The journal -/

/-- What a record of `wtmp` says. -/
inductive Note where
  | reboot
  | change (runlevel prevlevel : Int)
  | shutdown
  deriving DecidableEq, Repr

/-- The note that a record is, if it is about the machine. -/
def Note.of (e : Record) : Option Note :=
  match e.type with
  | .bootTime => some .reboot
  | .runLvl =>
    if e.pid = 0 then some .shutdown else some (.change (e.pid.tmod 256) (e.pid.tdiv 256))
  | _ => none

/-- Where a journal has come to. -/
inductive Stage where
  /-- the machine has been stopped, or there is no note -/
  | off
  /-- it has been booted -/
  | fresh
  | level (runlevel : Int)
  deriving DecidableEq, Repr

/-- A boot is written down when the level is first changed; every other change is one from the
level that the journal has come to. -/
def Stage.next : Stage → Note → Option Stage
  | fresh, .change runlevel 0 => some (level runlevel)
  | fresh, _ => none
  | _, .reboot => some fresh
  | level l, .change runlevel prevlevel =>
    if prevlevel = l then some (level runlevel) else none
  | _, .change _ _ => none
  | _, .shutdown => some off

/-- A list of notes is a journal that comes to a stage. -/
def Stage.walk (notes : List Note) : Option Stage :=
  notes.foldlM Stage.next off

/-- A week of a machine. -/
example : Stage.walk [.reboot, .change 50 0, .change 51 50, .change 54 51, .shutdown, .reboot,
    .change 50 0] = some (.level 50) := by
  decide

/-- A change from another level than the last. -/
example : Stage.walk [.reboot, .change 50 0, .change 54 51] = none := by
  decide

/-! ## Runs -/

/-- The pairs of levels of the changes among the notes. -/
def changes (notes : List Note) : List (Int × Int) :=
  notes.filterMap fun
    | .change runlevel prevlevel => some (runlevel, prevlevel)
    | _ => none

/-- The event tells of a change. -/
def Announces (env : List String) (change : Int × Int) : Prop :=
  ∃ extraEnv, env = ["RUNLEVEL=" ++ charText change.1,
    "PREVLEVEL=" ++ charText (orNone change.2)] ++ extraEnv

/-- The system before anything has been written down. -/
def Blank (sys : System) : Prop :=
  sys.content pathUtmpx = some [] ∧ sys.content pathWtmpx = some [] ∧ sys.events = []

/-- Both files can be written to, the level is not taken from the environment, and other
programs write about terminal lines only. -/
def Regular (i : Host × Bus × Command) : Prop :=
  i.1.writable pathUtmpx = true ∧ i.1.writable pathWtmpx = true ∧ i.1.getenv "RUNLEVEL" = none ∧
    match i.2.2 with
    | .login line => line.type.process = true
    | _ => True

/-- The systems after any number of programs. -/
abbrev Reached : System → Prop := Reach Blank (fun _ i => Regular i) run

/-- The files hold these records. -/
structure Holds (s : Files) (u w : List Record) : Prop where
  name : s.name = pathUtmpx
  utmp : s.content pathUtmpx = some u
  wtmp : s.content pathWtmpx = some w

/-- The record of a level, which stands in `utmp`, is the last note of the journal. -/
structure Tells (notes : List Note) (lvl : Record) : Prop where
  last : notes.getLast? = Note.of lvl
  shape : lvl.pid = 0 ∨ ∃ r p, Note.of lvl = some (.change r p) ∧ lvl.pid.tmod 256 = r ∧
    lvl.pid.tdiv 256 = p ∧ 0 < r ∧ r ≠ levelNone

/-- What the programs keep. -/
structure Kept (u w : List Record) (events : List (List String)) : Prop where
  journal : ∃ stage, Stage.walk (w.filterMap Note.of) = some stage ∧ stage ≠ .fresh
  tells : ∀ lvl, getutxid u runLvlKey = some lvl → Tells (w.filterMap Note.of) lvl
  single : ∀ t : UtType, t.single = true → u.countP (·.type = t) ≤ 1
  announced : ∃ pairs, pairs.Sublist (changes (w.filterMap Note.of)) ∧
    List.Forall₂ Announces events pairs

section

variable {x : Host} {bus : Bus} {s : Files} {sys : System} {u w : List Record}
  {events : List (List String)} {line : Record}

theorem Holds.record (h : Holds s u w) (hu : x.writable pathUtmpx = true)
    (hw : x.writable pathWtmpx = true) (line : Record) :
    (s.put x line).2 = true ∧
      Holds ((s.put x line).1.append x pathWtmpx line) (pututxline line u) (w ++ [line]) := by
  have hput : s.put x line = (s.set pathUtmpx (pututxline line u), true) := by
    simp [Files.put, h.name, h.utmp, hu]
  have hcontent : (s.set pathUtmpx (pututxline line u)).content pathWtmpx = some w := by
    simp [Files.set, pathUtmpx_ne.symm, h.wtmp]
  have happend : (s.set pathUtmpx (pututxline line u)).append x pathWtmpx line =
      (s.set pathUtmpx (pututxline line u)).set pathWtmpx (w ++ [line]) := by
    simp [Files.append, hcontent, hw, updwtmpx]
  rw [hput, happend]
  exact ⟨rfl, h.name, by simp [Files.set, pathUtmpx_ne], by simp [Files.set]⟩

theorem Stage.walk_append {notes : List Note} {stage : Stage} (h : Stage.walk notes = some stage)
    (notes' : List Note) : Stage.walk (notes ++ notes') = notes'.foldlM Stage.next stage := by
  unfold Stage.walk at h ⊢
  rw [List.foldlM_append, h]
  rfl

theorem Note.of_change {r p : Int} (hr : 0 < r) (hmax : r < 256) (hp : 0 ≤ p) :
    Note.of (changeRecord x r p) = some (.change r p) := by
  obtain ⟨hmod, hdiv⟩ := changeRecord_levels x hr hmax hp
  have hpid : (changeRecord x r p).pid ≠ 0 := by
    show r + p * 256 ≠ 0
    omega
  show (if (changeRecord x r p).pid = 0 then some Note.shutdown else
    some (.change ((changeRecord x r p).pid.tmod 256) ((changeRecord x r p).pid.tdiv 256))) = _
  rw [if_neg hpid, hmod, hdiv]

theorem Note.of_process (h : line.type.process = true) : Note.of line = none := by
  unfold Note.of
  cases ht : line.type <;> simp_all [UtType.process]

/-- A record of a terminal line changes nothing that is told of the machine. -/
theorem Kept.login (h : Kept u w events) (hline : line.type.process = true) :
    Kept (pututxline line u) (w ++ [line]) events := by
  have hself : sought line line = true := sought_self (.inr hline)
  have hnotes : (w ++ [line]).filterMap Note.of = w.filterMap Note.of := by
    simp [Note.of_process hline]
  have hother (e : Record) (he : sought line e = true) : sought runLvlKey e = false := by
    have hsingle : line.type.single = false := by
      cases ht : line.type <;> simp_all [UtType.process, UtType.single]
    have hprocess : e.type.process = true := by
      simp only [sought, hsingle, Bool.false_eq_true, if_false, Bool.and_eq_true] at he
      exact he.1.2
    rw [sought_single rfl]
    cases ht : e.type <;> simp_all [UtType.process, runLvlKey]
  refine ⟨hnotes ▸ h.journal, fun lvl hlvl => ?_,
    fun t ht => countP_pututxline_single hself ht (h.single t ht), hnotes ▸ h.announced⟩
  rw [getutxid_pututxline_other u hother hself] at hlvl
  exact hnotes ▸ h.tells lvl hlvl

/-- A record of a level takes the place of the one before it. -/
theorem getutxid_runLvl (hline : line.type = .runLvl) :
    getutxid (pututxline line u) runLvlKey = some line := by
  refine getutxid_pututxline u (fun e => ?_) (sought_self (.inl (by rw [hline]; rfl)))
  rw [sought_single (by rw [hline]; rfl), sought_single rfl, hline]
  rfl

/-- The machine is stopped. -/
theorem Kept.shutdown (h : Kept u w events) :
    Kept (pututxline (shutdownRecord x) u) (w ++ [shutdownRecord x]) events := by
  have hnotes : (w ++ [shutdownRecord x]).filterMap Note.of =
      w.filterMap Note.of ++ [.shutdown] := by
    rw [List.filterMap_append]
    rfl
  obtain ⟨stage, hwalk, hstage⟩ := h.journal
  obtain ⟨pairs, hpairs, hannounced⟩ := h.announced
  refine ⟨⟨.off, ?_, by simp⟩, fun lvl hlvl => ?_,
    fun t ht => countP_pututxline_single (sought_self (.inl rfl)) ht (h.single t ht),
    pairs, ?_, hannounced⟩
  · rw [hnotes, Stage.walk_append hwalk]
    cases stage with
    | fresh => exact absurd rfl hstage
    | off | level => rfl
  · rw [getutxid_runLvl rfl] at hlvl
    cases hlvl
    exact ⟨by rw [hnotes, List.getLast?_concat]; rfl, .inl rfl⟩
  · rw [hnotes, changes, List.filterMap_append]
    exact hpairs.trans (List.sublist_append_left ..)

/-- A journal that ends with a change has come to its level. -/
theorem Stage.walk_last {notes : List Note} {stage : Stage} {r p : Int}
    (h : Stage.walk notes = some stage) (hlast : notes.getLast? = some (.change r p)) :
    stage = .level r := by
  obtain ⟨init, rfl⟩ := List.getLast?_eq_some_iff.mp hlast
  obtain ⟨before, -, hnext⟩ : ∃ t, Stage.walk init = some t ∧
      Stage.next t (.change r p) = some stage := by
    unfold Stage.walk at h ⊢
    rw [List.foldlM_append] at h
    obtain ⟨t, ht, hnext⟩ := Option.bind_eq_some_iff.mp h
    exact ⟨t, ht, by simpa using hnext⟩
  cases before with
  | off => simp [Stage.next] at hnext
  | fresh =>
    by_cases hp : p = 0
    · subst hp
      simpa [Stage.next] using hnext.symm
    · unfold Stage.next at hnext
      split at hnext <;> simp_all
  | level l =>
    simp only [Stage.next] at hnext
    split at hnext
    · simpa using hnext.symm
    · simp at hnext

/-- The level is changed from the one that the journal has come to, or after a reboot. -/
theorem Kept.change (h : Kept u w events) {r prev : Int} (hr : 0 < r) (hmax : r < 256)
    (hnone : r ≠ levelNone) {env : Option (List String)}
    (henv : ∀ e ∈ env, Announces e (r, written prev)) {boots : List Record}
    (hboots : boots = [rebootRecord x] ∧ written prev = 0 ∨
      boots = [] ∧ 0 < prev ∧ written prev = prev ∧
        ∃ p, (w.filterMap Note.of).getLast? = some (.change prev p)) :
    Kept (pututxline (changeRecord x r (written prev)) (boots.foldl (fun u b => pututxline b u) u))
      (w ++ boots ++ [changeRecord x r (written prev)]) (events ++ env.toList) := by
  have hprev : 0 ≤ written prev := by
    rcases hboots with ⟨-, h⟩ | ⟨-, h, hw, -⟩ <;> omega
  have hnotes : (w ++ boots ++ [changeRecord x r (written prev)]).filterMap Note.of =
      w.filterMap Note.of ++ (boots.filterMap Note.of ++ [.change r (written prev)]) := by
    simp [Note.of_change hr hmax hprev]
  obtain ⟨stage, hwalk, hstage⟩ := h.journal
  obtain ⟨pairs, hpairs, hannounced⟩ := h.announced
  refine ⟨⟨.level r, ?_, by simp⟩, fun lvl hlvl => ?_, fun t ht => ?_, ?_⟩
  · rw [hnotes, Stage.walk_append hwalk]
    rcases hboots with ⟨rfl, hzero⟩ | ⟨rfl, hpos, hw, p, hlast⟩
    · rw [hzero]
      cases stage with
      | fresh => exact absurd rfl hstage
      | off | level => rfl
    · cases Stage.walk_last hwalk hlast
      simp [Stage.next, hw]
  · rw [getutxid_runLvl rfl] at hlvl
    cases hlvl
    obtain ⟨hmod, hdiv⟩ := changeRecord_levels x hr hmax hprev
    refine ⟨?_, .inr ⟨r, written prev, Note.of_change hr hmax hprev, hmod, hdiv, hr, hnone⟩⟩
    rw [hnotes, ← List.append_assoc, List.getLast?_concat, Note.of_change hr hmax hprev]
  · refine countP_pututxline_single (sought_self (.inl rfl)) ht ?_
    rcases hboots with ⟨rfl, -⟩ | ⟨rfl, -⟩
    · exact countP_pututxline_single (sought_self (.inl rfl)) ht (h.single t ht)
    · exact h.single t ht
  · have hchanges : changes ((w ++ boots ++ [changeRecord x r (written prev)]).filterMap Note.of) =
        changes (w.filterMap Note.of) ++ [(r, written prev)] := by
      rw [hnotes, changes, List.filterMap_append]
      rcases hboots with ⟨rfl, -⟩ | ⟨rfl, -⟩ <;> rfl
    rw [hchanges]
    cases env with
    | none =>
      refine ⟨pairs, hpairs.trans (List.sublist_append_left ..), ?_⟩
      simpa using hannounced
    | some e =>
      exact ⟨pairs ++ [(r, written prev)], hpairs.append_right _,
        List.rel_append hannounced (.cons (henv e rfl) .nil)⟩

theorem orNone_nonneg (n : Int) : 0 ≤ orNone n := by
  unfold orNone levelNone
  dsimp only
  split <;> split <;> omega

theorem orNone_written {prev : Int} (h : 0 < prev) : orNone (written prev) = prev := by
  unfold written
  split
  · rename_i hnone
    rw [hnone]
    rfl
  · exact orNone_pos h

/-- The level before a change is the one that the journal has come to, and no reboot has been
missed; or there is no such level. -/
theorem Kept.previous (hs : Holds s u w) (h : Kept u w events) :
    ∃ prev, (match (utmpReadRunlevel s none).2 with
        | some (prevlevel, _) => prevlevel
        | none => levelNone) = prev ∧ 0 < prev ∧
      (s.missed prev = true ∧ written prev = 0 ∨ s.missed prev = false ∧ written prev = prev ∧
        ∃ p, (w.filterMap Note.of).getLast? = some (.change prev p)) := by
  have hget : s.get runLvlKey = getutxid u runLvlKey := by
    simp [Files.get, hs.name, hs.utmp]
  unfold Files.missed
  rw [utmpReadRunlevel_default, hget]
  cases hlvl : getutxid u runLvlKey with
  | none => exact ⟨levelNone, rfl, by decide, .inl ⟨rfl, rfl⟩⟩
  | some lvl =>
    obtain ⟨hlast, hpid | ⟨r, p, hnote, hmod, hdiv, hr, hnone⟩⟩ := h.tells lvl hlvl
    · rw [Option.map_some, hpid]
      exact ⟨levelNone, rfl, by decide, .inl ⟨rfl, rfl⟩⟩
    · rw [Option.map_some, hmod, orNone_pos hr]
      have hwritten : written r = r := if_neg hnone
      refine ⟨r, rfl, hr, .inr ⟨?_, hwritten, p, hlast.trans hnote⟩⟩
      simp [savedLevel, hwritten]

/-- One change, whatever init does with it. -/
theorem sysvChangeRunlevel_kept (hs : Holds s u w) (h : Kept u w events)
    (hu : x.writable pathUtmpx = true) (hw : x.writable pathWtmpx = true)
    (henv : x.getenv "RUNLEVEL" = none) {r : Int} (hr : 0 < r) (hmax : r < 256)
    (hnone : r ≠ levelNone) (extraEnv : List String) :
    Sat (sysvChangeRunlevel x bus s r extraEnv none none)
      (fun t => ∃ u w, Holds t.1 u w ∧ Kept u w (events ++ t.2.1.toList)) (fun _ => False) := by
  obtain ⟨prev, hprev, hpos, hcase⟩ := h.previous hs
  have hlevel : ((utmpReadRunlevel s none).2.all fun l => decide (l.1 ≥ 0)) = true := by
    rw [utmpReadRunlevel_default]
    cases s.get runLvlKey with
    | none => rfl
    | some lvl => simp [orNone_nonneg]
  have hread : (utmpReadRunlevel s none).1 = s := by rw [utmpReadRunlevel_default]
  unfold sysvChangeRunlevel utmpGetRunlevel
  simp only [henv, hr, decide_true, check_true, hlevel, hread, sat_bind, sat_ok, hprev]
  split
  · exact ⟨u, w, hs, by simpa using h⟩
  rw [sat_bind, utmpWriteRunlevel_eq hs.name hr (Int.le_of_lt hpos)]
  -- the record of a reboot comes first where one has been missed
  obtain ⟨boots, hboots, hrecover⟩ : ∃ boots : List Record,
      (boots = [rebootRecord x] ∧ written prev = 0 ∨ boots = [] ∧ 0 < prev ∧ written prev = prev ∧
        ∃ p, (w.filterMap Note.of).getLast? = some (.change prev p)) ∧
      Holds (s.recover x prev) (boots.foldl (fun u b => pututxline b u) u) (w ++ boots) := by
    unfold Files.recover
    rcases hcase with ⟨hmissed, hzero⟩ | ⟨hmissed, hwritten, hlast⟩
    · refine ⟨[rebootRecord x], .inl ⟨rfl, hzero⟩, ?_⟩
      rw [if_pos hmissed]
      exact (hs.record hu hw _).2
    · refine ⟨[], .inr ⟨rfl, hpos, hwritten, hlast⟩, ?_⟩
      rw [if_neg (by simp [hmissed]), List.append_nil]
      exact hs
  obtain ⟨-, hholds⟩ := hrecover.record hu hw (changeRecord x r (written prev))
  have hannounces : Announces (["RUNLEVEL=" ++ charText r, "PREVLEVEL=" ++ charText prev] ++ extraEnv)
      (r, written prev) := by
    refine ⟨extraEnv, ?_⟩
    rw [orNone_written hpos]
  have hkept {env : Option (List String)} (henv : ∀ e ∈ env, Announces e (r, written prev)) :=
    h.change hr hmax hnone henv hboots
  simp only [sat_ok]
  split
  · exact ⟨_, _, hholds, hkept (by simp)⟩
  · exact ⟨_, _, hholds, hkept (by simpa using hannounces)⟩

/-- The levels that the programs ask for. -/
def Asked (r : Int) : Prop := 0 < r ∧ r < 256 ∧ r ≠ levelNone

theorem telinitMain_asked {arg : Option String} {r : Int} (h : telinitMain arg = .change r) :
    Asked r := by
  unfold telinitMain at h
  cases arg with
  | none => cases h
  | some text =>
    dsimp only at h
    split at h
    · split at h
      · rename_i c hc
        cases h
        simp only [List.mem_cons, List.not_mem_nil, or_false] at hc
        rcases hc with rfl | rfl | rfl | rfl | rfl | rfl | rfl <;>
          exact ⟨by decide, by decide, by decide⟩
      · split at h
        · cases h
          exact ⟨by decide, by decide, by decide⟩
        · split at h
          · cases h
          · split at h <;> cases h
    · cases h

theorem shutdownLevel_asked (options : List Char) : Asked (shutdownLevel options).1 := by
  have hvalue (value : Int × Option String)
      (hv : value.1 = 0 ∨ Asked value.1) :
      (options.foldl runlevelOption value).1 = 0 ∨ Asked (options.foldl runlevelOption value).1 := by
    induction options generalizing value with
    | nil => exact hv
    | cons c options ih =>
      refine ih _ ?_
      unfold runlevelOption
      split
      · exact .inr ⟨by decide, by decide, by decide⟩
      · exact .inr ⟨by decide, by decide, by decide⟩
      · exact .inr ⟨by decide, by decide, by decide⟩
      · exact .inr ⟨by decide, by decide, by decide⟩
      · exact hv
  unfold shutdownLevel
  dsimp only
  split
  · exact ⟨by decide, by decide, by decide⟩
  · rename_i hne
    exact (hvalue (0, none) (.inl rfl)).resolve_left hne

/-- What holds of a system after any number of programs. -/
def Sound (sys : System) : Prop := ∃ u w, Holds sys.files u w ∧ Kept u w sys.events

theorem Holds.files (h : Holds s u w) : Holds ⟨pathUtmpx, s.content⟩ u w := ⟨rfl, h.utmp, h.wtmp⟩

theorem shutdownNow_sound (h : Sound sys) (hu : x.writable pathUtmpx = true)
    (hw : x.writable pathWtmpx = true) (henv : x.getenv "RUNLEVEL" = none) (options : List Char) :
    Sat (shutdownNow x bus sys.files options) (fun t => Sound (sys.after t)) (fun _ => False) := by
  obtain ⟨u, w, hs, hk⟩ := h
  obtain ⟨hr, hmax, hnone⟩ := shutdownLevel_asked options
  refine (sysvChangeRunlevel_kept hs hk hu hw henv hr hmax hnone _).imp fun t ht => ?_
  obtain ⟨u', w', hs', hk'⟩ := ht
  exact ⟨u', w', hs'.files, hk'⟩

theorem utmpWriteShutdown_eq (hname : s.name = pathUtmpx) :
    utmpWriteShutdown x s none none =
      .ok ((s.put x (shutdownRecord x)).1.append x pathWtmpx (shutdownRecord x),
        (s.put x (shutdownRecord x)).2) := by
  have hwrite : utmpWrite x s none (shutdownRecord x) = s.put x (shutdownRecord x) := by
    show (s.utmpxname pathUtmpx).put x (shutdownRecord x) = _
    rw [Files.utmpxname_self hname]
  rw [← hwrite]
  rfl

/-- `reboot` writes that the machine stops, or leaves the files to `shutdown`. -/
theorem rebootMain_sound (h : Sound sys) (hu : x.writable pathUtmpx = true)
    (hw : x.writable pathWtmpx = true) (henv : x.getenv "RUNLEVEL" = none) (args : RebootArgs) :
    Sat (rebootMain x sys.files args)
      (fun t => Sound { sys with content := t.1.content } ∧
        ∀ options, t.2 = .shutdown options → t.1 = sys.files) (fun _ => False) := by
  obtain ⟨u, w, hs, hk⟩ := h
  have hlevel : ((utmpReadRunlevel sys.files none).2.all fun l => decide (l.1 ≥ 0)) = true := by
    rw [utmpReadRunlevel_default]
    cases sys.files.get runLvlKey with
    | none => rfl
    | some lvl => simp [orNone_nonneg]
  have hread : (utmpReadRunlevel sys.files none).1 = sys.files := by rw [utmpReadRunlevel_default]
  obtain ⟨-, hrecord⟩ := hs.record hu hw (shutdownRecord x)
  unfold rebootMain utmpGetRunlevel
  simp only [henv, hlevel, check_true, sat_bind, sat_ok, hread]
  split
  · exact ⟨⟨u, w, hs.files, hk⟩, fun _ _ => rfl⟩
  · rw [sat_bind, utmpWriteShutdown_eq hs.name]
    simp only [sat_ok]
    split
    · exact ⟨⟨_, _, hrecord.files, hk.shutdown⟩, by simp⟩
    · exact ⟨⟨_, _, hrecord.files, hk.shutdown⟩, by simp⟩

/-- One program. -/
theorem run_sound {i : Host × Bus × Command} (h : Sound sys) (hi : Regular i) :
    Sat (run sys i) Sound (fun _ => False) := by
  obtain ⟨x, bus, command⟩ := i
  obtain ⟨hu, hw, henv, hlogin⟩ := hi
  cases command with
  | telinit arg extraEnv =>
    show Sat (match telinitMain arg with
      | .change runlevel => _
      | _ => _) _ _
    split
    · rename_i r hr
      obtain ⟨u, w, hs, hk⟩ := h
      obtain ⟨hpos, hmax, hnone⟩ := telinitMain_asked hr
      rw [sat_bind]
      refine (sysvChangeRunlevel_kept hs hk hu hw henv hpos hmax hnone _).imp fun t ht => ?_
      obtain ⟨u', w', hs', hk'⟩ := ht
      exact ⟨u', w', hs'.files, hk'⟩
    · exact h
  | shutdown options =>
    show Sat (shutdownNow x bus sys.files options >>= _) _ _
    rw [sat_bind]
    exact shutdownNow_sound h hu hw henv options
  | reboot args =>
    show Sat (rebootMain x sys.files args >>= _) _ _
    rw [sat_bind]
    refine (rebootMain_sound h hu hw henv args).imp fun t ht => ?_
    dsimp only
    split
    · rw [sat_bind]
      exact shutdownNow_sound h hu hw henv _
    · exact ht.1
  | login line =>
    obtain ⟨u, w, hs, hk⟩ := h
    exact ⟨_, _, (hs.record hu hw line).2.files, hk.login hlogin⟩
  | boot =>
    obtain ⟨u, w, hs, hk⟩ := h
    refine ⟨[], w, ⟨rfl, by simp [System.files, Files.set], ?_⟩,
      hk.journal, by simp [getutxid], by simp, hk.announced⟩
    simpa [System.files, Files.set, pathUtmpx_ne.symm] using hs.wtmp

/-- After any programs `wtmp` is a journal, the level that `runlevel` tells is that of its last
note, init has heard of changes in it only, in their order and with their levels, and no program
trips an assertion. -/
theorem reached_journal (h : Reached sys) :
    ∃ w, sys.content pathWtmpx = some w ∧
      (∃ stage, Stage.walk (w.filterMap Note.of) = some stage ∧ stage ≠ .fresh) ∧
      (∀ x prevlevel runlevel, x.getenv "RUNLEVEL" = none →
        runlevelMain x sys.files none = some (prevlevel, runlevel) →
        ∃ p, (w.filterMap Note.of).getLast? = some (.change runlevel p) ∧ prevlevel = orNone p) ∧
      (∃ pairs, pairs.Sublist (changes (w.filterMap Note.of)) ∧
        List.Forall₂ Announces sys.events pairs) ∧
      ∀ i, Regular i → ∃ sys', run sys i = .ok sys' := by
  obtain ⟨u, w, hs, hk⟩ : Sound sys := by
    refine Reach.invariant ?_ (fun s i hs hi => (run_sound hs hi).mono (fun _ h => h)
      fun _ _ => trivial) h
    rintro sys ⟨hu, hw, hevents⟩
    refine ⟨[], [], ⟨rfl, hu, hw⟩, ⟨.off, rfl, by simp⟩, by simp [getutxid], by simp, [], ?_, ?_⟩
    · simp
    · rw [hevents]
      exact .nil
  refine ⟨w, hs.wtmp, hk.journal, fun x prevlevel runlevel henv hmain => ?_, hk.announced,
    fun i hi => ?_⟩
  swap
  · obtain ⟨sys', hrun, -⟩ := (run_sound ⟨u, w, hs, hk⟩ hi).exists_ok
    exact ⟨sys', hrun⟩
  have hget : sys.files.get runLvlKey = getutxid u runLvlKey := by
    simp [Files.get, hs.name, hs.utmp]
  simp only [runlevelMain, utmpGetRunlevel, henv, utmpReadRunlevel_default, hget] at hmain
  cases hlvl : getutxid u runLvlKey with
  | none => simp [hlvl] at hmain
  | some lvl =>
    simp only [hlvl, Option.map_some] at hmain
    obtain ⟨hlast, hpid | ⟨r, p, hnote, hmod, hdiv, hr, hnone⟩⟩ := hk.tells lvl hlvl
    · rw [hpid] at hmain
      simp [orNone, levelNone] at hmain
    · rw [hmod, hdiv, orNone_pos hr, if_neg hnone] at hmain
      cases hmain
      exact ⟨p, hlast.trans hnote, rfl⟩

end

/-- `telinit 2`, and `reboot` after it. -/
theorem reached_journal_two :
    ∃ sys, Reached sys ∧
      sys.events = [["RUNLEVEL=2", "PREVLEVEL=N"], ["RUNLEVEL=6", "PREVLEVEL=2"]] ∧
      ∃ w, sys.content pathWtmpx = some w ∧
        (∃ stage, Stage.walk (w.filterMap Note.of) = some stage ∧ stage ≠ .fresh) ∧
        (∀ x prevlevel runlevel, x.getenv "RUNLEVEL" = none →
          runlevelMain x sys.files none = some (prevlevel, runlevel) →
          ∃ p, (w.filterMap Note.of).getLast? = some (.change runlevel p) ∧ prevlevel = orNone p) ∧
        (∃ pairs, pairs.Sublist (changes (w.filterMap Note.of)) ∧
          List.Forall₂ Announces sys.events pairs) ∧
        ∀ i, Regular i → ∃ sys', run sys i = .ok sys' := by
  let x : Host := ⟨fun _ => none, none, fun _ => (0, 0), fun _ => true⟩
  let bus : Bus := ⟨true, true, true, true⟩
  have h₀ : Reached ⟨fun _ => some [], []⟩ := .init ⟨rfl, rfl, rfl⟩
  have h₁ := Reach.step (i := (x, bus, .telinit (some "2") [])) h₀ ⟨rfl, rfl, rfl, trivial⟩ rfl
  have h₂ := Reach.step (i := (x, bus, .reboot ⟨"reboot", false, false, false, false, none⟩)) h₁
    ⟨rfl, rfl, rfl, trivial⟩ rfl
  exact ⟨_, h₂, by decide, reached_journal h₂⟩

end Startup.Utmp
