import Startup.FileBridge.Watch
import Startup.Lib.Variable

/-!
# What jobs say of files (`extra/file.c`)

The bridge watches a file for each `file` event in the conditions of a job.  The arguments of
the event name it.

* `readArg`: what one argument does to the variables of `job_add_file`.
* `readFileInfo`: what is handed to `watched_file_new`.
* `Described`: what the arguments called `FILE` and `EVENT` say.
* `Kept`: the variables after some arguments.
* `meets_iff`: when what is watched is what is said.
-/

namespace Startup.FileBridge

open Lib

/-! ## Paths -/

/-- The options of the bridge: user-session mode, with the home directory of the user. -/
structure Session where
  user : Bool
  home : Text
  home_ne : user = true → home ≠ []

/-- `GLOB_CHARS`. -/
def globChars : Text := "*?[]".toList

/-- `strcspn (path, GLOB_CHARS) < strlen (path)`. -/
def hasGlob (path : Text) : Bool := path.any fun c => globChars.contains c

/-- `path_valid`: the path is not too long, absolute, or for a user relative, and has no parent
references. -/
def pathValid (u : Session) (path : Text) : Bool :=
  (utf8 path).length ≤ 4095 &&
    (if u.user then path.head? ≠ some '.' else path.head? = some '/') &&
    !decide ("../".toList <:+: path)

/-- `expand_path`. -/
def expandPath (u : Session) (path : Text) : Text :=
  let p := if "~/".toList.isPrefixOf path || "./".toList.isPrefixOf path then path.drop 2
    else path
  u.home ++ '/' :: p

/-- The path is relative to the home directory. -/
def relative (u : Session) (path : Text) : Bool := u.user && path.head? ≠ some '/'

/-! ## The loop -/

/-- The two assertions about `dirname` and `basename`, which abort the bridge. -/
inductive PathAssertion where
  | dir
  | base
  deriving DecidableEq, Repr

/-- The variables of `job_add_file`. -/
structure Reading where
  path : Option Text
  expanded : Option Text
  globExpr : Option Text
  events : List FileOp
  deriving DecidableEq, Repr

/-- What a `FILE` that passes the tests leaves. -/
def Reading.file (u : Session) (r : Reading) (val : Text) : Reading :=
  { r with
    expanded := if relative u val then some (expandPath u val) else r.expanded
    path := if hasGlob (basename val) then some (dirname val) else some val
    globExpr := if hasGlob (basename val) then some (basename val) else r.globExpr }

/-- What an `EVENT` leaves. -/
def Reading.event (r : Reading) (val : Text) : Reading :=
  if val = "create".toList then { r with events := [.create] }
  else if val = "modify".toList then { r with events := [.modify] }
  else if val = "delete".toList then
    { r with events := if FileOp.delete ∈ r.events then r.events else r.events ++ [.delete] }
  else r

/-- The body of the loop in `job_add_file`: `none` where the function returns. -/
def readArg (u : Session) (r : Reading) (env : Text) : Except PathAssertion (Option Reading) :=
  match splitVariable env with
  | none => .ok none
  | some (name, val) =>
    if beginsName name "FILE".toList then
      if !pathValid u val then .ok none
      else if (dirname val).head? = some '.' then .error .dir
      else if hasGlob (dirname val) then .ok none
      else if basename val = val then .error .base
      else .ok (some (r.file u val))
    else if beginsName name "EVENT".toList then .ok (some (r.event val))
    else .ok (some r)

/-- The loop. -/
def readArgs (u : Session) : Reading → List Text → Except PathAssertion (Option Reading)
  | r, [] => .ok (some r)
  | r, env :: args => do
    match ← readArg u r env with
    | none => .ok none
    | some r => readArgs u r args

/-- `ALL_FILE_EVENTS`. -/
def allFileEvents : List FileOp := [.create, .modify, .delete]

/-- The arguments of `watched_file_new`. -/
def Reading.info (r : Reading) (path : Text) : FileInfo where
  path := r.expanded.getD path
  original := if r.expanded.isSome then some path else none
  events := if r.events.isEmpty then allFileEvents else r.events
  glob := r.globExpr

/-- What `job_add_file` hands to `watched_file_new`, with what follows the name of the event. -/
def readFileInfo (u : Session) (args : List Text) : Except PathAssertion (Option FileInfo) := do
  match ← readArgs u ⟨none, none, none, []⟩ args with
  | none => .ok none
  | some r =>
    match r.path with
    | none => .ok none
    | some path => .ok (some (r.info path))

/-- `job_add_file`. -/
def jobAddFileArgs (x : Host) (u : Session) (s : Bridge × Job) (args : List Text) :
    Except PathAssertion (Except Fault (Bridge × Job)) := do
  match ← readFileInfo u args with
  | none => .ok (.ok s)
  | some info => .ok (jobAddFile x s info)

/-- The bridge watches a file for the arguments, unless no directory of it can be watched. -/
def Registers (u : Session) (args : List Text) (info : FileInfo) : Prop :=
  readFileInfo u args = .ok (some info) ∧ ∀ id, (watchedFileNew id info).isSome = true

/-! ## What the arguments say -/

/-- The last component of the path is a pattern. -/
def isPattern (val : Text) : Bool := hasGlob (basename val)

/-- The path, or its directory where it is split. -/
def dirPart (val : Text) : Text := if isPattern val then dirname val else val

/-- The pattern, where the path is split. -/
def globPart (val : Text) : Option Text := if isPattern val then some (basename val) else none

/-- The path that is watched, from the root directory on. -/
def fullPath (u : Session) (val : Text) : Text :=
  if relative u val then expandPath u (dirPart val) else dirPart val

/-- The value is a path that the bridge can watch: it is valid, only its last component is a
pattern, and it does not stand for the root directory. -/
structure Acceptable (u : Session) (val : Text) : Prop where
  valid : pathValid u val = true
  dir_plain : hasGlob (dirname val) = false
  not_root : 1 < (fullPath u val).length

/-- The events that a value stands for. -/
def selected (val : Text) : List FileOp :=
  if val = "create".toList then [.create]
  else if val = "modify".toList then [.modify]
  else if val = "delete".toList then [.delete]
  else allFileEvents

/-- A path of an argument called `FILE`. -/
def FileArg (args : List Text) (val : Text) : Prop := "FILE=".toList ++ val ∈ args

/-- A value of an argument called `EVENT`. -/
def EventArg (args : List Text) (val : Text) : Prop := "EVENT=".toList ++ val ∈ args

/-- The file that a value names. -/
structure NamedBy (u : Session) (val : Text) (info : FileInfo) : Prop where
  path_eq : info.path = fullPath u val
  original_eq : info.original = if relative u val then some (dirPart val) else none
  glob_eq : info.glob = globPart val

/-- The file and the events are those that the arguments say. -/
structure Described (u : Session) (args : List Text) (info : FileInfo) : Prop where
  file : ∃ val, FileArg args val ∧ Acceptable u val ∧ NamedBy u val info
  events : (∃ val, EventArg args val ∧ info.events = selected val) ∨
    (∀ val, ¬EventArg args val) ∧ info.events = allFileEvents

/-- A file is watched if and only if an argument names one, and then as the arguments say. -/
def Meets (u : Session) (args : List Text) : Prop :=
  ((∃ info, Registers u args info) ↔ ∃ val, FileArg args val ∧ Acceptable u val) ∧
    ∀ info, Registers u args info → Described u args info

/-! ## What is taken for `FILE` and `EVENT` -/

/-- The value of an argument whose name is a beginning of `FILE`. -/
def fileValue (env : Text) : Option Text :=
  (splitVariable env).bind fun v => if beginsName v.1 "FILE".toList then some v.2 else none

/-- The value of an argument whose name is a beginning of `EVENT`, and not one of `FILE`. -/
def eventValue (env : Text) : Option Text :=
  (splitVariable env).bind fun v =>
    if !beginsName v.1 "FILE".toList && beginsName v.1 "EVENT".toList then some v.2 else none

def fileValues (args : List Text) : List Text := args.filterMap fileValue

/-- Those of the values that name an event. -/
def knownEvents (args : List Text) : List Text :=
  (args.filterMap eventValue).filter fun val =>
    val ∈ ["create".toList, "modify".toList, "delete".toList]

/-- A value passes the tests and the assertions. -/
structure Clean (u : Session) (val : Text) : Prop where
  valid : pathValid u val = true
  dir_plain : hasGlob (dirname val) = false
  dir_named : (dirname val).head? ≠ some '.'
  base_ne : basename val ≠ val

/-- Some values leave the variables as one of them does: the last path is that of the value, it
is expanded if the value is, and the last expansion and the last pattern are those of the
value. -/
structure Left (u : Session) (vals : List Text) (val : Text) : Prop where
  path : vals.getLast?.map dirPart = some (dirPart val)
  relative_iff : (∃ v ∈ vals, relative u v = true) ↔ relative u val = true
  expanded : ∀ v ∈ (vals.filter (relative u)).getLast?, expandPath u v = expandPath u (dirPart val)
  glob : (vals.filter isPattern).getLast?.map basename = globPart val

/-- Some values that name events leave the events of one value. -/
inductive Chosen : List Text → List FileOp → Prop where
  | all : Chosen [] allFileEvents
  | create {vals : List Text} (h : vals.getLast? = some "create".toList) : Chosen vals [.create]
  | modify {vals : List Text} (h : vals.getLast? = some "modify".toList) : Chosen vals [.modify]
  | delete {vals : List Text} (hne : vals ≠ []) (h : ∀ val ∈ vals, val = "delete".toList) :
      Chosen vals [.delete]

/-- What the values leave is the root directory, so that nothing is watched. -/
def LeavesRoot (u : Session) (vals : List Text) : Prop :=
  (∀ val ∈ vals, relative u val = false) ∧ vals.getLast?.map dirPart = some ['/']

/-- What is taken for `FILE` and `EVENT` beside the arguments that are called so does no harm. -/
def Harmless (u : Session) (args : List Text) : Prop :=
  ((∃ val, FileArg args val ∧ Acceptable u val) →
    (∀ val ∈ fileValues args, Clean u val) ∧
      (∃ val, FileArg args val ∧ Acceptable u val ∧ Left u (fileValues args) val) ∧
      ((∃ val, EventArg args val ∧ Chosen (knownEvents args) (selected val)) ∨
        (∀ val, ¬EventArg args val) ∧ knownEvents args = [])) ∧
    ((∀ val, FileArg args val → ¬Acceptable u val) →
      fileValues args = [] ∨ (∃ val ∈ fileValues args, ¬Clean u val) ∨
        LeavesRoot u (fileValues args))

/-! ## Events -/

variable {u : Session} {args vals known : List Text} {env val n v : Text} {r r' : Reading}
  {evs sel : List FileOp} {info : FileInfo}

/-- The events after the values that name one. -/
inductive EventsKept : List Text → List FileOp → Prop where
  | none : EventsKept [] []
  | create {vals : List Text} (h : vals.getLast? = some "create".toList) :
      EventsKept vals [.create]
  | modify {vals : List Text} (h : vals.getLast? = some "modify".toList) :
      EventsKept vals [.modify]
  | delete {vals : List Text} (hne : vals ≠ []) (h : ∀ val ∈ vals, val = "delete".toList) :
      EventsKept vals [.delete]
  | both {vals : List Text} {op : FileOp} (hop : op ≠ .delete)
      (hlast : vals.getLast? = some "delete".toList)
      (hother : ∃ val ∈ vals, val ≠ "delete".toList) : EventsKept vals [op, .delete]

/-- A `delete` goes to the events that are there. -/
theorem EventsKept.deleted (h : EventsKept known evs) :
    EventsKept (known ++ ["delete".toList])
      (if FileOp.delete ∈ evs then evs else evs ++ [.delete]) := by
  have hlast : (known ++ ["delete".toList]).getLast? = some "delete".toList := by simp
  have hother : ∀ val, known.getLast? = some val → val ≠ "delete".toList →
      ∃ val ∈ known ++ ["delete".toList], val ≠ "delete".toList := by
    intro val hval hne
    exact ⟨val, List.mem_append_left _ (List.mem_of_getLast? hval), hne⟩
  cases h with
  | none => exact .delete (by simp) (by simp)
  | create h => exact .both (by decide) hlast (hother _ h (by decide))
  | modify h => exact .both (by decide) hlast (hother _ h (by decide))
  | delete hne h =>
    refine .delete (by simp) ?_
    intro val hmem
    rcases List.mem_append.mp hmem with hmem | hmem
    · exact h val hmem
    · exact List.mem_singleton.mp hmem
  | @both _ op hop hlast' hother' =>
    obtain ⟨val, hmem, hne⟩ := hother'
    have hin : FileOp.delete ∈ [op, FileOp.delete] := by simp
    rw [if_pos hin]
    exact .both hop hlast ⟨val, List.mem_append_left _ hmem, hne⟩

/-- What the events at the end are, as far as one value can say. -/
theorem EventsKept.chosen_iff (h : EventsKept known evs)
    (hsel : sel = [.create] ∨ sel = [.modify] ∨ sel = [.delete] ∨ sel = allFileEvents) :
    (if evs.isEmpty then allFileEvents else evs) = sel ↔ Chosen known sel := by
  constructor
  · intro heq
    cases h with
    | none =>
      obtain rfl : allFileEvents = sel := heq
      exact .all
    | create h =>
      obtain rfl : [FileOp.create] = sel := heq
      exact .create h
    | modify h =>
      obtain rfl : [FileOp.modify] = sel := heq
      exact .modify h
    | delete hne h =>
      obtain rfl : [FileOp.delete] = sel := heq
      exact .delete hne h
    | @both _ op =>
      obtain rfl : [op, FileOp.delete] = sel := heq
      rcases hsel with hsel | hsel | hsel | hsel
      · simp at hsel
      · simp at hsel
      · simp at hsel
      · simp [allFileEvents] at hsel
  · intro hchosen
    have hdelete : ∀ {val : Text}, known.getLast? = some val → (∀ v ∈ known, v = "delete".toList) →
        val = "delete".toList := fun hval hall => hall _ (List.mem_of_getLast? hval)
    cases hchosen with
    | all =>
      cases h with
      | none => rfl
      | create h => simp at h
      | modify h => simp at h
      | delete hne => exact absurd rfl hne
      | both _ hlast => simp at hlast
    | create h' =>
      cases h with
      | none => simp at h'
      | create => rfl
      | modify h => simp [h] at h'
      | delete _ h => exact absurd (hdelete h' h) (by decide)
      | both _ hlast => simp [hlast] at h'
    | modify h' =>
      cases h with
      | none => simp at h'
      | create h => simp [h] at h'
      | modify => rfl
      | delete _ h => exact absurd (hdelete h' h) (by decide)
      | both _ hlast => simp [hlast] at h'
    | delete hne h' =>
      cases h with
      | none => exact absurd rfl hne
      | create h => exact absurd (hdelete h h') (by decide)
      | modify h => exact absurd (hdelete h h') (by decide)
      | delete => rfl
      | both _ _ hother =>
        obtain ⟨val, hmem, hval⟩ := hother
        exact absurd (h' val hmem) hval

theorem selected_cases (val : Text) :
    selected val = [.create] ∨ selected val = [.modify] ∨ selected val = [.delete] ∨
      selected val = allFileEvents := by
  unfold selected
  split_ifs <;> simp

/-! ## One argument -/

/-- The variables after some arguments. -/
structure Kept (u : Session) (args : List Text) (r : Reading) : Prop where
  path_eq : r.path = (fileValues args).getLast?.map dirPart
  expanded_eq : r.expanded =
    ((fileValues args).filter (relative u)).getLast?.map (expandPath u)
  glob_eq : r.globExpr = ((fileValues args).filter isPattern).getLast?.map basename
  events : EventsKept (knownEvents args) r.events

/-- The loop goes on exactly when the argument has a name, and passes if it is taken for
`FILE`. -/
theorem readArg_eq_some_iff :
    readArg u r env = .ok (some r') ↔
      '=' ∈ env ∧ (∀ v ∈ fileValue env, Clean u v) ∧
        r' = (fileValue env).elim ((eventValue env).elim r r.event) (r.file u) := by
  by_cases hmem : '=' ∈ env
  · obtain ⟨n, v, rfl, hn⟩ := List.eq_append_cons_of_mem hmem
    have hsplit : splitVariable (n ++ '=' :: v) = some (n, v) := splitVariable_append hn
    unfold readArg fileValue eventValue
    simp only [hsplit, Option.bind_some]
    by_cases hfile : beginsName n "FILE".toList = true
    · simp only [hfile, if_true, Option.elim_some, Option.mem_def, Option.some.injEq,
        forall_eq']
      by_cases hvalid : pathValid u v = true
      · by_cases hdir : (dirname v).head? = some '.'
        · have hno : ¬Clean u v := fun h => h.dir_named hdir
          simp [hvalid, hdir, hno]
        · by_cases hglob : hasGlob (dirname v) = true
          · have hno : ¬Clean u v := fun h => by simp [h.dir_plain] at hglob
            simp [hvalid, hdir, hglob, hno]
          · by_cases hbase : basename v = v
            · have hno : ¬Clean u v := fun h => h.base_ne hbase
              simp [hvalid, hdir, hglob, hbase, hno]
            · have hyes : Clean u v := ⟨hvalid, by simpa using hglob, hdir, hbase⟩
              simp [hvalid, hdir, hglob, hbase, hyes, eq_comm]
      · have hno : ¬Clean u v := fun h => hvalid h.valid
        simp [hvalid, hno]
    · rw [Bool.not_eq_true] at hfile
      cases hevent : beginsName n "EVENT".toList with
      | true =>
        simp only [hfile, Bool.not_false, Bool.and_self, if_true, Option.elim_none,
          Option.elim_some, Bool.false_eq_true, if_false]
        simp [eq_comm]
      | false =>
        simp only [hfile, Bool.not_false, Bool.and_false, Option.elim_none, Bool.false_eq_true,
          if_false]
        simp [eq_comm]
  · have hsplit : splitVariable env = none := by rw [splitVariable, if_neg hmem]
    unfold readArg
    simp [hsplit, hmem]

theorem fileValues_append (env : Text) (done : List Text) :
    fileValues (done ++ [env]) = fileValues done ++ (fileValue env).toList := by
  unfold fileValues
  rw [List.filterMap_append]
  cases h : fileValue env with
  | none => simp [h]
  | some v => simp [h]

theorem knownEvents_append (env : Text) (done : List Text) :
    knownEvents (done ++ [env]) = knownEvents done ++ (eventValue env).toList.filter fun val =>
      val ∈ ["create".toList, "modify".toList, "delete".toList] := by
  unfold knownEvents
  rw [List.filterMap_append, List.filter_append]
  cases h : eventValue env with
  | none => simp [h]
  | some v => simp [h]

/-- What is taken for `FILE` is not taken for `EVENT`. -/
theorem eventValue_eq_none (h : fileValue env = some v) : eventValue env = none := by
  obtain ⟨w, hw, hval⟩ := Option.bind_eq_some_iff.mp h
  unfold eventValue
  rw [hw, Option.bind_some]
  split at hval
  · rename_i hbegins
    simp only [hbegins, Bool.not_true, Bool.false_and, Bool.false_eq_true, if_false]
  · contradiction

theorem EventsKept.event (h : EventsKept known r.events) (val : Text) :
    EventsKept (known ++ [val].filter fun val =>
      val ∈ ["create".toList, "modify".toList, "delete".toList]) (r.event val).events := by
  unfold Reading.event
  by_cases hcreate : val = "create".toList
  · rw [if_pos hcreate, hcreate]
    exact .create (by simp)
  by_cases hmodify : val = "modify".toList
  · rw [if_neg hcreate, if_pos hmodify, hmodify]
    exact .modify (by simp)
  by_cases hdelete : val = "delete".toList
  · rw [if_neg hcreate, if_neg hmodify, if_pos hdelete, hdelete]
    exact h.deleted
  · have hval : val ∉ ["create".toList, "modify".toList, "delete".toList] := by
      simp only [List.mem_cons, List.not_mem_nil, or_false, not_or]
      exact ⟨hcreate, hmodify, hdelete⟩
    rw [if_neg hcreate, if_neg hmodify, if_neg hdelete,
      List.filter_cons_of_neg (by simpa using hval), List.filter_nil, List.append_nil]
    exact h

/-- The variables after one more argument. -/
theorem Kept.next {done : List Text} (h : Kept u done r) (env : Text) :
    Kept u (done ++ [env])
      ((fileValue env).elim ((eventValue env).elim r r.event) (r.file u)) := by
  have hfiles := fileValues_append env done
  have hevents := knownEvents_append env done
  cases hfile : fileValue env with
  | some v =>
    rw [hfile] at hfiles
    rw [eventValue_eq_none hfile] at hevents
    simp only [Option.toList_some] at hfiles
    simp only [Option.toList_none, List.filter_nil, List.append_nil] at hevents
    rw [Option.elim_some]
    constructor
    · rw [hfiles, List.getLast?_concat, Option.map_some, Reading.file, dirPart, isPattern]
      split <;> rfl
    · rw [hfiles, List.filter_append, Reading.file]
      by_cases hrel : relative u v = true
      · simp [hrel]
      · simp [hrel, h.expanded_eq]
    · rw [hfiles, List.filter_append, Reading.file]
      by_cases hpattern : isPattern v = true
      · have hglob : hasGlob (basename v) = true := hpattern
        simp [hpattern, hglob]
      · have hglob : ¬hasGlob (basename v) = true := hpattern
        simp [hpattern, hglob, h.glob_eq]
    · rw [hevents]
      exact h.events
  | none =>
    rw [hfile, Option.toList_none, List.append_nil] at hfiles
    rw [Option.elim_none]
    cases hevent : eventValue env with
    | none =>
      rw [hevent, Option.toList_none, List.filter_nil, List.append_nil] at hevents
      exact ⟨hfiles ▸ h.path_eq, hfiles ▸ h.expanded_eq, hfiles ▸ h.glob_eq, hevents ▸ h.events⟩
    | some v =>
      rw [hevent, Option.toList_some] at hevents
      rw [Option.elim_some]
      have hother : (r.event v).path = r.path ∧ (r.event v).expanded = r.expanded ∧
          (r.event v).globExpr = r.globExpr := by
        unfold Reading.event
        split_ifs <;> exact ⟨rfl, rfl, rfl⟩
      constructor
      · rw [hother.1, hfiles]
        exact h.path_eq
      · rw [hother.2.1, hfiles]
        exact h.expanded_eq
      · rw [hother.2.2, hfiles]
        exact h.glob_eq
      · rw [hevents]
        exact h.events.event v

/-! ## All arguments -/

theorem readArgs_cons (args : List Text) :
    readArgs u r (env :: args) = .ok (some r') ↔
      ∃ r₁, readArg u r env = .ok (some r₁) ∧ readArgs u r₁ args = .ok (some r') := by
  rw [readArgs]
  cases h : readArg u r env with
  | error e =>
    constructor
    · intro h'
      contradiction
    · intro h'
      obtain ⟨r₁, h', -⟩ := h'
      contradiction
  | ok o =>
    cases o with
    | none =>
      constructor
      · intro h'
        cases h'
      · intro h'
        obtain ⟨r₁, h', -⟩ := h'
        cases h'
    | some r₁ =>
      constructor
      · intro h'
        exact ⟨r₁, rfl, h'⟩
      · intro h'
        obtain ⟨r₂, h', hrest⟩ := h'
        cases h'
        exact hrest

theorem fileValues_cons :
    fileValues (env :: args) = (fileValue env).toList ++ fileValues args := by
  unfold fileValues
  cases h : fileValue env with
  | none => simp [h]
  | some v => simp [h]

/-- What is taken for `FILE` passes when the loop reaches its end. -/
theorem readArgs_some {done : List Text} (h : Kept u done r)
    (hread : readArgs u r args = .ok (some r')) :
    (∀ val ∈ fileValues args, Clean u val) ∧ Kept u (done ++ args) r' := by
  induction args generalizing r done with
  | nil =>
    obtain rfl : r = r' := Option.some.inj (Except.ok.inj hread)
    rw [List.append_nil]
    exact ⟨List.forall_mem_nil _, h⟩
  | cons env args ih =>
    obtain ⟨r₁, hfirst, hread⟩ := (readArgs_cons args).mp hread
    obtain ⟨-, hclean, rfl⟩ := readArg_eq_some_iff.mp hfirst
    obtain ⟨hrest, hkept⟩ := ih (h.next env) hread
    rw [List.append_assoc, List.singleton_append] at hkept
    refine ⟨?_, hkept⟩
    intro val hval
    rw [fileValues_cons, List.mem_append, Option.mem_toList] at hval
    rcases hval with hval | hval
    · exact hclean val hval
    · exact hrest val hval

theorem readArgs_of_clean (hnamed : ∀ env ∈ args, '=' ∈ env)
    (hclean : ∀ val ∈ fileValues args, Clean u val) (r : Reading) :
    ∃ r', readArgs u r args = .ok (some r') := by
  induction args generalizing r with
  | nil => exact ⟨r, rfl⟩
  | cons env args ih =>
    rw [fileValues_cons] at hclean
    have hfirst : ∀ v ∈ fileValue env, Clean u v := fun v hv =>
      hclean v (List.mem_append_left _ (Option.mem_toList.mpr hv))
    have hrest : ∀ v ∈ fileValues args, Clean u v := fun v hv =>
      hclean v (List.mem_append_right _ hv)
    have hstep := (readArg_eq_some_iff (r := r)).mpr
      ⟨hnamed env List.mem_cons_self, hfirst, rfl⟩
    obtain ⟨r', hread⟩ := ih (fun e he => hnamed e (List.mem_cons_of_mem _ he)) hrest _
    exact ⟨r', (readArgs_cons args).mpr ⟨_, hstep, hread⟩⟩

theorem kept_nil : Kept u [] ⟨none, none, none, []⟩ := ⟨rfl, rfl, rfl, .none⟩

theorem watchedFileNew_isSome_iff (id : FileId) :
    (watchedFileNew id info).isSome = true ↔ 1 < info.path.length := by
  unfold watchedFileNew
  split
  · rename_i h
    simp
    omega
  · rename_i h
    simp
    omega

/-- What is handed to `watched_file_new`, as the values tell. -/
structure HandsOver (u : Session) (args : List Text) (last : Text) (info : FileInfo) : Prop where
  path_eq : info.path =
    (((fileValues args).filter (relative u)).getLast?.map (expandPath u)).getD (dirPart last)
  original_eq : info.original =
    if ((fileValues args).filter (relative u)).getLast?.isSome then some (dirPart last) else none
  glob_eq : info.glob = ((fileValues args).filter isPattern).getLast?.map basename
  events : ∃ evs, EventsKept (knownEvents args) evs ∧
    info.events = if evs.isEmpty then allFileEvents else evs

theorem Kept.handsOver (h : Kept u args r) {last : Text} :
    HandsOver u args last (r.info (dirPart last)) := by
  refine ⟨?_, ?_, h.glob_eq, r.events, h.events, rfl⟩
  · rw [Reading.info, h.expanded_eq]
  · rw [Reading.info, h.expanded_eq, Option.isSome_map]

/-- Something is handed over when all values pass and there is one. -/
theorem readFileInfo_of_clean (hnamed : ∀ env ∈ args, '=' ∈ env)
    (hclean : ∀ val ∈ fileValues args, Clean u val) {last : Text}
    (hlast : (fileValues args).getLast? = some last) :
    ∃ info, readFileInfo u args = .ok (some info) ∧ HandsOver u args last info := by
  obtain ⟨r, hread⟩ := readArgs_of_clean hnamed hclean ⟨none, none, none, []⟩
  have hkept : Kept u args r := (readArgs_some kept_nil hread).2
  have hpath : r.path = some (dirPart last) := by rw [hkept.path_eq, hlast, Option.map_some]
  refine ⟨r.info (dirPart last), ?_, hkept.handsOver⟩
  unfold readFileInfo
  rw [hread]
  simp only [bind, Except.bind, hpath]

theorem readFileInfo_some (h : readFileInfo u args = .ok (some info)) :
    (∀ val ∈ fileValues args, Clean u val) ∧
      ∃ last, (fileValues args).getLast? = some last ∧ HandsOver u args last info := by
  unfold readFileInfo at h
  cases hread : readArgs u ⟨none, none, none, []⟩ args with
  | error e =>
    rw [hread] at h
    contradiction
  | ok o =>
    rw [hread] at h
    cases o with
    | none => cases h
    | some r =>
      obtain ⟨hclean, hkept⟩ := readArgs_some kept_nil hread
      rw [List.nil_append] at hkept
      refine ⟨hclean, ?_⟩
      have hpath := hkept.path_eq
      cases hlast : (fileValues args).getLast? with
      | none =>
        rw [hlast, Option.map_none] at hpath
        simp only [bind, Except.bind, hpath] at h
        cases h
      | some last =>
        rw [hlast, Option.map_some] at hpath
        simp only [bind, Except.bind, hpath] at h
        cases h
        exact ⟨last, rfl, hkept.handsOver⟩

/-! ## What the values leave -/

theorem isSome_relative (u : Session) (vals : List Text) :
    ((vals.filter (relative u)).getLast?).isSome = true ↔ ∃ v ∈ vals, relative u v = true := by
  rw [List.getLast?_isSome, Ne, List.filter_eq_nil_iff]
  push Not
  rfl

/-- What is handed over is the file of a value exactly when the values leave the variables as
that one does. -/
theorem HandsOver.namedBy_iff {last : Text} (h : HandsOver u args last info)
    (hlast : (fileValues args).getLast? = some last) :
    NamedBy u val info ↔ Left u (fileValues args) val := by
  have hpath := h.path_eq
  have horiginal := h.original_eq
  have hrelative := isSome_relative u (fileValues args)
  cases hval : relative u val with
  | true =>
    have hfull : fullPath u val = expandPath u (dirPart val) := by rw [fullPath, if_pos hval]
    constructor
    · intro hnamed
      have hshown := hnamed.original_eq
      rw [horiginal, if_pos hval] at hshown
      split at hshown
      · rename_i hsome
        refine ⟨?_, ?_, ?_, h.glob_eq.symm.trans hnamed.glob_eq⟩
        · rw [hlast, Option.map_some, Option.some.inj hshown]
        · exact iff_of_true (hrelative.mp hsome) hval
        · intro v hv
          rw [Option.mem_def.mp hv, Option.map_some, Option.getD_some] at hpath
          rw [← hpath, hnamed.path_eq, hfull]
      · contradiction
    · intro hleft
      have hsome := hrelative.mpr (hleft.relative_iff.mpr hval)
      have hdir := hleft.path
      rw [hlast, Option.map_some] at hdir
      obtain ⟨v, hv⟩ := Option.isSome_iff_exists.mp hsome
      refine ⟨?_, ?_, h.glob_eq.trans hleft.glob⟩
      · rw [hpath, hv, Option.map_some, Option.getD_some, hleft.expanded v hv, hfull]
      · rw [horiginal, if_pos hsome, if_pos hval, hdir]
  | false =>
    have hval' : ¬relative u val = true := by simp [hval]
    have hfull : fullPath u val = dirPart val := by rw [fullPath, if_neg hval']
    constructor
    · intro hnamed
      have hshown := hnamed.original_eq
      rw [horiginal, if_neg hval'] at hshown
      split at hshown
      · contradiction
      · rename_i hnone
        have hnone' := Option.not_isSome_iff_eq_none.mp hnone
        rw [hnone', Option.map_none, Option.getD_none] at hpath
        refine ⟨?_, ?_, ?_, h.glob_eq.symm.trans hnamed.glob_eq⟩
        · rw [hlast, Option.map_some, ← hpath, hnamed.path_eq, hfull]
        · exact iff_of_false (fun hex => hnone (hrelative.mpr hex)) hval'
        · intro v hv
          rw [hnone'] at hv
          contradiction
    · intro hleft
      have hnone : ¬((fileValues args).filter (relative u)).getLast?.isSome = true :=
        fun hsome => hval' (hleft.relative_iff.mp (hrelative.mp hsome))
      have hdir := hleft.path
      rw [hlast, Option.map_some] at hdir
      refine ⟨?_, ?_, h.glob_eq.trans hleft.glob⟩
      · rw [hpath, Option.not_isSome_iff_eq_none.mp hnone, Option.map_none, Option.getD_none,
          hfull, Option.some.inj hdir]
      · rw [horiginal, if_neg hnone, if_neg hval']

/-- A value that passes and is not relative is absolute, also where it is split. -/
theorem head?_dirPart (hclean : Clean u val) (hrel : relative u val = false) :
    (dirPart val).head? = some '/' := by
  have habsolute : val.head? = some '/' := by
    have hvalid := hclean.valid
    unfold pathValid at hvalid
    unfold relative at hrel
    cases huser : u.user with
    | true => simpa [huser] using hrel
    | false => simp_all
  unfold dirPart
  split
  · exact head?_dirname habsolute
  · exact habsolute

/-- Of the values that pass, only those that stand for patterns in the root directory leave a
path that is too short. -/
theorem root_of_short (hclean : Clean u val) (hrel : relative u val = false)
    (hshort : (dirPart val).length ≤ 1) : dirPart val = ['/'] := by
  have hhead := head?_dirPart hclean hrel
  cases hdir : dirPart val with
  | nil =>
    rw [hdir] at hhead
    contradiction
  | cons c t =>
    rw [hdir] at hhead hshort
    obtain rfl : t = [] := List.length_eq_zero_iff.mp (by simpa using hshort)
    rw [Option.some.inj hhead]

theorem length_expandPath (hrel : relative u val = true) : 1 < (expandPath u val).length := by
  have huser : u.user = true := by
    unfold relative at hrel
    exact (Bool.and_eq_true_iff.mp hrel).1
  have hne : u.home.length ≠ 0 := by
    rw [Ne, List.length_eq_zero_iff]
    exact u.home_ne huser
  unfold expandPath
  simp
  omega

theorem HandsOver.short_iff {last : Text} (h : HandsOver u args last info)
    (hlast : (fileValues args).getLast? = some last)
    (hclean : ∀ val ∈ fileValues args, Clean u val) :
    info.path.length ≤ 1 ↔ LeavesRoot u (fileValues args) := by
  have hpath := h.path_eq
  cases hrel : ((fileValues args).filter (relative u)).getLast? with
  | some v =>
    have hmem := List.mem_of_getLast? hrel
    rw [List.mem_filter] at hmem
    have hlong := length_expandPath (u := u) hmem.2
    rw [hrel, Option.map_some, Option.getD_some] at hpath
    rw [hpath]
    constructor
    · intro hshort
      omega
    · intro hroot
      rw [hroot.1 v hmem.1] at hmem
      exact absurd hmem.2 (by decide)
  | none =>
    rw [hrel, Option.map_none, Option.getD_none] at hpath
    have hnone : ∀ val ∈ fileValues args, relative u val = false := by
      intro val hval
      have hnil := List.getLast?_eq_none_iff.mp hrel
      simpa using List.filter_eq_nil_iff.mp hnil val hval
    have hmem := List.mem_of_getLast? hlast
    rw [hpath]
    unfold LeavesRoot
    rw [hlast, Option.map_some]
    constructor
    · intro hshort
      rw [root_of_short (hclean last hmem) (hnone last hmem) hshort]
      exact ⟨hnone, rfl⟩
    · intro hroot
      rw [Option.some.inj hroot.2]
      exact le_rfl

/-! ## When what is watched is what is said -/

theorem HandsOver.events_iff {last : Text} (h : HandsOver u args last info)
    (hsel : sel = [.create] ∨ sel = [.modify] ∨ sel = [.delete] ∨ sel = allFileEvents) :
    info.events = sel ↔ Chosen (knownEvents args) sel := by
  obtain ⟨evs, hkept, hevents⟩ := h.events
  rw [hevents]
  exact hkept.chosen_iff hsel

theorem chosen_all_iff : Chosen known allFileEvents ↔ known = [] := by
  constructor
  · intro h
    generalize hall : allFileEvents = sel at h
    cases h with
    | all => rfl
    | create => simp [allFileEvents] at hall
    | modify => simp [allFileEvents] at hall
    | delete => simp [allFileEvents] at hall
  · intro h
    rw [h]
    exact .all

theorem registers_iff :
    Registers u args info ↔ readFileInfo u args = .ok (some info) ∧ 1 < info.path.length := by
  unfold Registers
  simp only [watchedFileNew_isSome_iff, forall_const]

/-- What is watched is what the arguments called `FILE` and `EVENT` say exactly when what else
is taken for them does no harm. -/
theorem meets_iff (hnamed : ∀ env ∈ args, '=' ∈ env) : Meets u args ↔ Harmless u args := by
  constructor
  · intro h
    obtain ⟨hiff, hdescribed⟩ := h
    constructor
    · intro hacceptable
      obtain ⟨info, hinfo⟩ := hiff.mpr hacceptable
      obtain ⟨⟨val, harg, hval, hby⟩, hevents⟩ := hdescribed info hinfo
      obtain ⟨hclean, last, hlast, hover⟩ := readFileInfo_some hinfo.1
      refine ⟨hclean, ⟨val, harg, hval, (hover.namedBy_iff hlast).mp hby⟩, ?_⟩
      rcases hevents with ⟨ev, hev, heq⟩ | ⟨hnone, heq⟩
      · exact .inl ⟨ev, hev, (hover.events_iff (selected_cases ev)).mp heq⟩
      · exact .inr ⟨hnone, chosen_all_iff.mp ((hover.events_iff (by simp)).mp heq)⟩
    · intro hnone
      by_contra hharm
      push Not at hharm
      obtain ⟨hne, hclean, hroot⟩ := hharm
      obtain ⟨last, hlast⟩ := Option.isSome_iff_exists.mp (List.getLast?_isSome.mpr hne)
      obtain ⟨info, hread, hover⟩ := readFileInfo_of_clean hnamed hclean hlast
      have hlong : 1 < info.path.length := by
        by_contra hshort
        exact hroot ((hover.short_iff hlast hclean).mp (by omega))
      obtain ⟨val, harg, hval⟩ := hiff.mp ⟨info, registers_iff.mpr ⟨hread, hlong⟩⟩
      exact hnone val harg hval
  · intro h
    obtain ⟨hsome, hnone⟩ := h
    have hacceptable : ∀ info, Registers u args info →
        ∃ val, FileArg args val ∧ Acceptable u val := by
      intro info hinfo
      obtain ⟨hread, hlong⟩ := registers_iff.mp hinfo
      obtain ⟨hclean, last, hlast, hover⟩ := readFileInfo_some hread
      by_contra hno
      push Not at hno
      rcases hnone hno with hnil | ⟨val, hval, hdirty⟩ | hroot
      · rw [hnil] at hlast
        contradiction
      · exact hdirty (hclean val hval)
      · have hshort := (hover.short_iff hlast hclean).mpr hroot
        omega
    constructor
    · constructor
      · intro hinfo
        obtain ⟨info, hinfo⟩ := hinfo
        exact hacceptable info hinfo
      · intro hex
        obtain ⟨hclean, ⟨val, -, hval, hleft⟩, -⟩ := hsome hex
        obtain ⟨last, hlast⟩ : ∃ last, (fileValues args).getLast? = some last := by
          obtain ⟨last, hlast, -⟩ := Option.map_eq_some_iff.mp hleft.path
          exact ⟨last, hlast⟩
        obtain ⟨info, hread, hover⟩ := readFileInfo_of_clean hnamed hclean hlast
        have hby := (hover.namedBy_iff hlast).mpr hleft
        refine ⟨info, registers_iff.mpr ⟨hread, ?_⟩⟩
        rw [hby.path_eq]
        exact hval.not_root
    · intro info hinfo
      obtain ⟨-, ⟨val, harg, hval, hleft⟩, hevents⟩ := hsome (hacceptable info hinfo)
      obtain ⟨-, last, hlast, hover⟩ := readFileInfo_some hinfo.1
      refine ⟨⟨val, harg, hval, (hover.namedBy_iff hlast).mpr hleft⟩, ?_⟩
      rcases hevents with ⟨ev, hev, hchosen⟩ | ⟨hno, hnil⟩
      · exact .inl ⟨ev, hev, (hover.events_iff (selected_cases ev)).mpr hchosen⟩
      · exact .inr ⟨hno, (hover.events_iff (by simp)).mpr (chosen_all_iff.mpr hnil)⟩

/-- The bridge of the system. -/
def systemSession : Session := ⟨false, [], nofun⟩

/-- A file of the manual page, and a variable that the bridge does not know. -/
def pidFile : List Text := ["FILE=/run/app.pid".toList, "EVENT=create".toList, "TEST=1".toList]

theorem meets_iff_pidFile : Meets systemSession pidFile := by
  have hclean : Clean systemSession "/run/app.pid".toList :=
    ⟨by decide, by decide, by decide, by decide⟩
  have hacceptable : Acceptable systemSession "/run/app.pid".toList :=
    ⟨by decide, by decide, by decide⟩
  have harg : FileArg pidFile "/run/app.pid".toList := .head _
  have hleft : Left systemSession (fileValues pidFile) "/run/app.pid".toList :=
    ⟨rfl, by decide, nofun, rfl⟩
  have hevent : EventArg pidFile "create".toList := .tail _ (.head _)
  refine (meets_iff (by decide)).mpr ⟨fun _ => ⟨?_, ⟨_, harg, hacceptable, hleft⟩, ?_⟩, ?_⟩
  · intro val hval
    obtain rfl : val = "/run/app.pid".toList := List.mem_singleton.mp hval
    exact hclean
  · exact .inl ⟨_, hevent, .create rfl⟩
  · intro hnone
    exact absurd hacceptable (hnone _ harg)

/-- A variable whose name is a beginning of `FILE` takes the place of it. -/
theorem readFileInfo_otherFile :
    ¬∀ (u : Session) (args : List Text), (∀ env ∈ args, '=' ∈ env) → Meets u args := by
  intro h
  have hmeets := h systemSession ["FILE=/run/app.pid".toList, "F=/etc/motd".toList] (by decide)
  have hregisters : Registers systemSession ["FILE=/run/app.pid".toList, "F=/etc/motd".toList]
      ⟨"/etc/motd".toList, none, allFileEvents, none⟩ :=
    ⟨by decide, fun id => rfl⟩
  obtain ⟨val, harg, -, hby⟩ := (hmeets.2 _ hregisters).file
  rcases List.mem_cons.mp harg with heq | hmem
  · have hval : val = "/run/app.pid".toList := by
      have hlit : "FILE=".toList ++ val = "FILE=".toList ++ "/run/app.pid".toList := heq
      exact List.append_cancel_left hlit
    rw [hval] at hby
    exact absurd hby.path_eq (by decide)
  · exact absurd (List.mem_singleton.mp hmem) (by simp)

end Startup.FileBridge
