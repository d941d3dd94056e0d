import Startup.World.Machine
import Startup.Environ.Table
import Startup.Job.StartEnvironment

/-!
# The environment of a process (`init/job_process.c`)

`job_process_start` hands to a process the environment with which its job was
started; to a `pre-stop` or `post-stop` process also the environment of the stop,
each entry of which it passes to `environ_set` as the format; and the variables
that name the job.

* `jobProcessEnvironment`: that part of `job_process_start`;
* `StartEnvironment`: the events and requests that start a job, with the layers of the
  environment that they give it;
* `processEnvironment_merged`: what the processes of a job that has been started get is the
  merge of all layers.
-/

namespace Startup

open Lib

variable {x : Host} {getenv : String → Option String}

/-! ## What a process gets -/

/-- `nih_vsprintf` of a format for which there are no arguments.  There is no result where
the format takes one. -/
def vsprintfNone : List Char → Option (List Char)
  | [] => some []
  | [c] => if c = '%' then none else some [c]
  | c :: d :: rest =>
    if c = '%' then
      if d = '%' then (vsprintfNone rest).map fun text => '%' :: text else none
    else (vsprintfNone (d :: rest)).map fun text => c :: text

/-- `environ_set` of a format without arguments. -/
def environSetFormat (getenv : String → Option String) (env : List String) (format : String) :
    Option (List String) :=
  (vsprintfNone format.toList).map fun str => environAdd getenv env true (String.ofList str)

/-- The processes that get the environment of the stop. -/
def ProcessType.takesStopEnv : ProcessType → Bool
  | .preStop | .postStop => true
  | _ => false

/-- The environment of the stop is added for the processes that get it. -/
def addStopEnv (getenv : String → Option String) (job : Job) (process : ProcessType)
    (env : List String) : Option (List String) :=
  match job.stopEnv with
  | none => some env
  | some stopEnv =>
    if process.takesStopEnv then stopEnv.foldlM (environSetFormat getenv) env else some env

/-- The environment that `job_process_start` makes for a process.  `session` is
`control_server_address` where init runs for a user. -/
def jobProcessEnvironment (getenv : String → Option String) (session : Option String)
    (job : Job) (process : ProcessType) : Option (List String) := do
  let env := match job.env with
    | none => []
    | some jobEnv => environAppend getenv [] true jobEnv
  let env ← addStopEnv getenv job process env
  let env := environAdd getenv env true ("UPSTART_JOB=" ++ job.cls.name)
  let env := environAdd getenv env true ("UPSTART_INSTANCE=" ++ job.name)
  match session with
  | none => some env
  | some address => some (environAdd getenv env true ("UPSTART_SESSION=" ++ address))

/-! ## What it is to get -/

/-- The value that is last under a key. -/
def lastValue (getenv : String → Option String) (entries : List String) (key : List Char) :
    Option (List Char) :=
  (entries.filter fun e => entryKey e = key).getLast?.bind (newValue getenv)

/-- A table is the merge of layers from left to right: it has one entry for each key, with
the value that is last in the layers. -/
structure Merged (getenv : String → Option String) (layers : List (List String))
    (table : List String) : Prop where
  restorable : Restorable table
  values : ∀ key, tableValue table key = lastValue getenv layers.flatten key

/-- The names of the events of a condition, or the numbers of their descriptors, after a
key. -/
def keyedList (key : String) (texts : List String) : String :=
  texts.foldl (fun evlist text =>
    if evlist.toList.getLast? = some '=' then evlist ++ text else evlist ++ " " ++ text)
    (key ++ "=")

/-- The layers of the environment of a class. -/
def classLayers (w : World) (cls : ClassState) : List (List String) :=
  [w.jobEnviron, cls.config.env]

/-- The layers of the events of a condition. -/
def eventLayers (events : List Event) : List (List String) :=
  events.map Event.env ++ [[keyedList "UPSTART_EVENTS" (events.map Event.name)]]

/-- The layer of the descriptors of events, where there are any. -/
def fdLayer (events : List Event) : List String :=
  let fds := (events.map Event.fd).filter (· ≥ 0)
  if fds.isEmpty then [] else [keyedList "UPSTART_FDS" (fds.map toString)]

/-- What starts an instance of a class, and the layers of the environment that it gives the
job. -/
inductive StartEnvironment (x : Host) (w : World) (cls : ClassState) :
    Input → List (List String) → Prop where
  /-- `job_class_induct_job` -/
  | events {root : EventOperator} {events : List Event} {env : List String}
      (startOn : cls.startOn = some root)
      (found : filteredEvents .eventOperatorEnvironment w.sys root = .ok events)
      (collected : eventOperatorEnvironment x w.sys root (jobClassEnvironment x w cls)
        "UPSTART_EVENTS" = .ok env) :
      StartEnvironment x w cls (.induct root env)
        (classLayers w cls ++ eventLayers events ++ [fdLayer events])
  /-- `job_class_start` -/
  | start (env : List String) (message : MessageId) (wait : Bool) :
      StartEnvironment x w cls
        (.classStart (environAppend x.getenv (jobClassEnvironment x w cls) true env) message wait)
        (classLayers w cls ++ [env])
  /-- `job_class_restart` -/
  | restart (env : List String) (message : MessageId) (wait : Bool) :
      StartEnvironment x w cls
        (.classRestart (environAppend x.getenv (jobClassEnvironment x w cls) true env) message wait)
        (classLayers w cls ++ [env])

/-- The layers that a process has besides those that its job was started with. -/
def processLayers (session : Option String) (job : Job) (process : ProcessType) :
    List (List String) :=
  [if process.takesStopEnv then job.stopEnv.getD [] else [],
    ["UPSTART_JOB=" ++ job.cls.name, "UPSTART_INSTANCE=" ++ job.name],
    (session.map fun address => "UPSTART_SESSION=" ++ address).toList]

/-! ## Merging -/

theorem environAppend_append (getenv : String → Option String) (env a b : List String) :
    environAppend getenv (environAppend getenv env true a) true b =
      environAppend getenv env true (a ++ b) := by
  unfold environAppend
  rw [List.foldl_append]

/-- Where every addition replaces, the last one stays. -/
theorem settled_replacing (old : Option (List Char)) {adds : List (Bool × Option (List Char))}
    (h : ∀ add ∈ adds, add.1 = true) :
    settled old adds = adds.getLast?.elim old Prod.snd := by
  induction adds using List.reverseRecOn with
  | nil => exact settled_nil old
  | append_singleton adds add ih =>
    rw [settled_concat, h add (by simp), List.getLast?_concat]
    rfl

/-- A table that is appended to nothing is the merge of its layers. -/
theorem merged_append (getenv : String → Option String) (layers : List (List String)) :
    Merged getenv layers (environAppend getenv [] true layers.flatten) := by
  have hupdated := @updated_adds getenv [] (by decide) (layers.flatten.map fun e => (true, e))
  rw [List.foldl_map] at hupdated
  refine ⟨hupdated.restorable, fun key => ?_⟩
  rw [environAppend, hupdated.values key, settled_replacing]
  · unfold additionsFor lastValue
    rw [List.filter_map, List.map_map, List.getLast?_map]
    show Option.elim (Option.map _ (layers.flatten.filter fun e => entryKey e = key).getLast?) _ _ = _
    cases (layers.flatten.filter fun e => entryKey e = key).getLast? with
    | none => rfl
    | some e => rfl
  · intro add hadd
    obtain ⟨e, he, rfl⟩ := List.mem_map.mp hadd
    obtain ⟨e', -, rfl⟩ := List.mem_map.mp (List.mem_filter.mp he).1
    rfl

/-- Appending the environments of events one by one. -/
theorem foldl_environAppend (getenv : String → Option String) (env : List String)
    (events : List Event) :
    events.foldl (fun env event => environAppend getenv env true event.env) env =
      environAppend getenv env true (events.map Event.env).flatten := by
  induction events generalizing env with
  | nil => rfl
  | cons event events ih =>
    rw [List.foldl_cons, ih, List.map_cons, List.flatten_cons, environAppend_append]

theorem eventOperatorEnvironment_eq {sys : Sys} {root : EventOperator} {events : List Event}
    {env env' : List String}
    (hfound : filteredEvents .eventOperatorEnvironment sys root = .ok events)
    (h : eventOperatorEnvironment x sys root env "UPSTART_EVENTS" = .ok env') :
    env' = environAppend x.getenv env true (eventLayers events).flatten := by
  unfold eventOperatorEnvironment at h
  rw [hfound] at h
  have henv' := (Except.ok.inj h).symm
  rw [henv', foldl_environAppend, eventLayers, List.flatten_append, ← environAppend_append,
    keyedList, List.foldl_map]
  rfl

/-- A condition has the same events after a call that makes none. -/
theorem filteredEvents_bare {fn fn' : SourceFn} {sys sys' : Sys} {root : EventOperator}
    {events events' : List Event} (hext : Extends sys sys' [])
    (hfound : filteredEvents fn sys root = .ok events)
    (hfound' : filteredEvents fn' sys' root = .ok events') :
    events'.map Event.bare = events.map Event.bare := by
  unfold filteredEvents at hfound hfound'
  generalize root.filtered = refs at hfound hfound'
  induction refs generalizing events events' with
  | nil =>
    cases hfound
    cases hfound'
    rfl
  | cons ref refs ih =>
    rw [List.mapM_cons] at hfound hfound'
    obtain ⟨ev, hev, hfound⟩ := bind_eq_ok.mp hfound
    obtain ⟨evs, hevs, heq⟩ := bind_eq_ok.mp hfound
    obtain ⟨ev', hev', hfound'⟩ := bind_eq_ok.mp hfound'
    obtain ⟨evs', hevs', heq'⟩ := bind_eq_ok.mp hfound'
    cases heq
    cases heq'
    rw [List.map_cons, List.map_cons, ih hevs hevs']
    cases ref with
    | none => cases hev
    | some e =>
      have hget : sys.event? e = some ev := by
        cases h : sys.event? e with
        | none => simp [h] at hev
        | some ev₀ =>
          simp only [h] at hev
          exact congrArg some (Except.ok.inj hev)
      have hget' : sys'.event? e = some ev' := by
        cases h : sys'.event? e with
        | none => simp [h] at hev'
        | some ev₀ =>
          simp only [h] at hev'
          exact congrArg some (Except.ok.inj hev')
      have hbare := hext.event_bare (show (sys.event? e).isSome = true by rw [hget]; rfl)
      rw [hget, hget'] at hbare
      rw [Option.some.inj hbare]

/-- The descriptors are collected when those that waited for the job have been told. -/
theorem eventOperatorFds_eq {sys sys' : Sys} {root : EventOperator} {events : List Event}
    {fds : List Int} {env env' : List String} (hext : Extends sys sys' [])
    (hfound : filteredEvents .eventOperatorEnvironment sys root = .ok events)
    (h : eventOperatorFds x sys' root env "UPSTART_FDS" = .ok (fds, env')) :
    env' = environAppend x.getenv env true (fdLayer events) := by
  obtain ⟨events', hfound', heq⟩ := bind_eq_ok.mp h
  have henv' := (Prod.mk.inj (Except.ok.inj heq)).2.symm
  have hfds : events'.map Event.fd = events.map Event.fd := by
    have hbare := congrArg (List.map Event.fd) (filteredEvents_bare hext hfound hfound')
    rwa [List.map_map, List.map_map] at hbare
  rw [henv', fdLayer, show (fun ev : Event => ev.fd) = Event.fd from rfl, hfds]
  split
  · rfl
  · rw [keyedList, List.foldl_map]
    rfl

theorem jobClassEnvironment_eq (x : Host) (w : World) (cls : ClassState) :
    jobClassEnvironment x w cls = environAppend x.getenv [] true (classLayers w cls).flatten := by
  unfold jobClassEnvironment classLayers
  rw [environAppend_append]
  simp

/-- What starts a job gives it the merge of its layers. -/
theorem StartEnvironment.gives {w : World} {cls : ClassState} {i : Input}
    {layers : List (List String)} {job : Job} (h : StartEnvironment x w cls i layers)
    (hi : i.startsAnew job) :
    Sat (jobStep x w.sys job i)
      (fun r => r.2.All (Given job (environAppend x.getenv [] true layers.flatten)))
      (fun _ => True) := by
  cases h with
  | events startOn found collected =>
    refine (inductInstance_gives hi).imp ?_
    rintro r ⟨sys', fds, env', hext, hdescribed, hgiven⟩
    rw [eventOperatorFds_eq hext found hdescribed, eventOperatorEnvironment_eq found collected,
      jobClassEnvironment_eq, environAppend_append, environAppend_append] at hgiven
    simpa using hgiven
  | start env m wait =>
    rw [List.flatten_append, ← environAppend_append, ← jobClassEnvironment_eq,
      List.flatten_singleton]
    exact jobClassStartInstance_gives hi
  | restart env m wait =>
    rw [List.flatten_append, ← environAppend_append, ← jobClassEnvironment_eq,
      List.flatten_singleton]
    exact jobClassRestartInstance_gives hi

/-! ## The stop environment -/

/-- A text with `%` becomes shorter. -/
theorem vsprintfNone_length {text out : List Char} (h : vsprintfNone text = some out)
    (hmem : '%' ∈ text) : out.length < text.length := by
  have hle : ∀ {text out : List Char}, vsprintfNone text = some out →
      out.length ≤ text.length := by
    intro text out h
    fun_induction vsprintfNone text generalizing out with
    | case1 => cases h; rfl
    | case2 => cases h
    | case3 c hc => cases h; rfl
    | case4 rest ih =>
      obtain ⟨out', hout', rfl⟩ := Option.map_eq_some_iff.mp h
      have hlen := ih hout'
      simp only [List.length_cons]
      omega
    | case5 => cases h
    | case6 c d rest hc ih =>
      obtain ⟨out', hout', rfl⟩ := Option.map_eq_some_iff.mp h
      exact Nat.succ_le_succ (ih hout')
  fun_induction vsprintfNone text generalizing out with
  | case1 => cases hmem
  | case2 => cases h
  | case3 c hc => exact absurd (List.mem_singleton.mp hmem).symm hc
  | case4 rest ih =>
    obtain ⟨out', hout', rfl⟩ := Option.map_eq_some_iff.mp h
    have hlen := hle hout'
    simp only [List.length_cons]
    omega
  | case5 => cases h
  | case6 c d rest hc ih =>
    obtain ⟨out', hout', rfl⟩ := Option.map_eq_some_iff.mp h
    refine Nat.succ_lt_succ (ih hout' ?_)
    exact (List.mem_cons.mp hmem).resolve_left fun heq => hc heq.symm

/-- An entry is the text that is added exactly when it has no `%`. -/
theorem vsprintfNone_iff (text : List Char) : vsprintfNone text = some text ↔ '%' ∉ text := by
  constructor
  · intro h hmem
    exact absurd (vsprintfNone_length h hmem) (Nat.lt_irrefl _)
  · intro h
    fun_induction vsprintfNone text with
    | case1 => rfl
    | case2 => simp at h
    | case3 c hc => rfl
    | case4 rest ih => simp at h
    | case5 d rest hd => simp at h
    | case6 c d rest hc ih =>
      rw [ih fun hmem => h (List.mem_cons_of_mem _ hmem)]
      rfl

theorem foldlM_environSetFormat {env stopEnv : List String}
    (h : ∀ e ∈ stopEnv, '%' ∉ e.toList) :
    stopEnv.foldlM (environSetFormat getenv) env =
      some (environAppend getenv env true stopEnv) := by
  induction stopEnv generalizing env with
  | nil => rfl
  | cons e stopEnv ih =>
    have he := (vsprintfNone_iff e.toList).mpr (h e List.mem_cons_self)
    have hset : environSetFormat getenv env e = some (environAdd getenv env true e) := by
      rw [environSetFormat, he, Option.map_some, String.ofList_toList]
    rw [List.foldlM_cons, hset]
    exact ih fun e he => h e (List.mem_cons_of_mem _ he)

theorem addStopEnv_eq (getenv : String → Option String) {job : Job} {process : ProcessType}
    (env : List String)
    (hstop : process.takesStopEnv = true → ∀ e ∈ job.stopEnv.getD [], '%' ∉ e.toList) :
    addStopEnv getenv job process env = some (environAppend getenv env true
      (if process.takesStopEnv then job.stopEnv.getD [] else [])) := by
  unfold addStopEnv
  cases hs : job.stopEnv with
  | none => simp [environAppend]
  | some stopEnv =>
    dsimp only
    by_cases ht : process.takesStopEnv = true
    · rw [if_pos ht, if_pos ht]
      exact foldlM_environSetFormat fun e he => hstop ht e (by rw [hs]; exact he)
    · rw [if_neg ht, if_neg ht]
      rfl

/-- What a process gets where the stop environment has no `%`. -/
theorem jobProcessEnvironment_eq (getenv : String → Option String) (session : Option String)
    {job : Job} {process : ProcessType} {start : List (List String)} 
    (henv : job.env = some (environAppend getenv [] true start.flatten))
    (hstop : process.takesStopEnv = true → ∀ e ∈ job.stopEnv.getD [], '%' ∉ e.toList) :
    jobProcessEnvironment getenv session job process =
      some (environAppend getenv [] true (start ++ processLayers session job process).flatten) := by
  have hself : environAppend getenv [] true (environAppend getenv [] true start.flatten) =
      environAppend getenv [] true start.flatten := by
    exact (environAppend_self_iff getenv _).mpr
      (Restorable.append (by decide : Restorable []) getenv true _)
  unfold jobProcessEnvironment
  rw [henv]
  dsimp only
  rw [hself, addStopEnv_eq getenv _ hstop]
  have hlayers : environAppend getenv [] true
      (start ++ processLayers session job process).flatten =
      environAppend getenv (environAppend getenv (environAppend getenv
        (environAppend getenv [] true start.flatten) true
        (if process.takesStopEnv then job.stopEnv.getD [] else [])) true
        ["UPSTART_JOB=" ++ job.cls.name, "UPSTART_INSTANCE=" ++ job.name]) true
        (session.map fun address => "UPSTART_SESSION=" ++ address).toList := by
    unfold processLayers
    simp only [List.flatten_append, List.flatten_cons, List.flatten_nil, List.append_nil,
      ← environAppend_append]
  rw [hlayers]
  cases session <;> rfl

/-! ## The environment of every process -/

/-- An entry of the stop environment is added as it is exactly when it has no `%`; and a job
that is started in any way has the environment that it is given, and its processes get it,
from where it enters `JOB_STARTING`: a new job does so at once.  Where no entry of the stop
environment has a `%`, every process gets the merge of the environments of the class and
of the start, that of the stop for `pre-stop` and `post-stop`, and the variables that name
the job. -/
theorem processEnvironment_merged {x : Host} {w : World} {cls : ClassState} {job : Job}
    {i : Input} {layers : List (List String)} {s₁ s s' : Sys × JobRef} (session : Option String)
    (h : Reached Always (w.sys, .live job)) (hi : StartEnvironment x w cls i layers)
    (henabled : Enabled w.sys job i) (hnew : i.startsAnew job)
    (hstep : jobStep x w.sys job i = .ok s₁)
    (hrun : Reach (· = s₁) (Admits StartsNothing) step s)
    (hrun' : Reach (· = s) (Admits StartsNothing) step s') :
    (∀ e : String, vsprintfNone e.toList = some e.toList ↔ '%' ∉ e.toList) ∧
    (job.state = .waiting ∨ job.state ≠ .starting ∧ s.2.All (fun job' => job'.state = .starting) →
      s'.2.All fun job' => ∀ process : ProcessType,
        (process.takesStopEnv = true → ∀ e ∈ job'.stopEnv.getD [], '%' ∉ e.toList) →
        ∃ table, jobProcessEnvironment x.getenv session job' process = some table ∧
          Merged x.getenv (layers ++ processLayers session job' process) table) := by
  refine ⟨fun e => vsprintfNone_iff e.toList, fun hentered => ?_⟩
  have hset : Settled (· ≠ .security) job := reached_settled h
  have hset₁ : s₁.2.All (Settled (· ≠ .security)) :=
    (jobStep_settled hset henabled fun hne => absurd rfl hne).of_ok hstep
  have hgiven := reach_keeps Given.keeps ((hi.gives hnew).of_ok hstep) hset₁ hrun
  have htaken : s.2.All (Taken (environAppend x.getenv [] true layers.flatten)) := by
    obtain ⟨sys, job' | job'⟩ := s
    · rcases hentered with hw | ⟨hs₀, hs⟩
      · have hb : job.blocker = none := by
          rw [← Option.not_isSome_iff_eq_none, hset.blocked, hw]
          decide
        exact hgiven.1.fresh ⟨hw, hset.waiting hw, hb⟩
      · exact hgiven.1.starting hs₀ hs
    · trivial
  have htaken' := reach_keeps Taken.keeps htaken hgiven.2 hrun'
  obtain ⟨sys', job' | job'⟩ := s'
  · intro process hstop
    exact ⟨_, jobProcessEnvironment_eq x.getenv session htaken'.1.env hstop,
      merged_append x.getenv _⟩
  · trivial

/-- What follows the start of a job of a concrete run. -/
theorem reach_started (sys : Sys) (job : Job) (i : Input) {s₁ : Sys × JobRef}
    (_ : jobStep plainHost sys job i = .ok s₁) : Reach (· = s₁) (Admits StartsNothing) step s₁ :=
  .init rfl

/-- A step that starts nothing of a concrete run. -/
theorem reach_next {s₁ s : Sys × JobRef} {sys : Sys} {job : Job}
    (h : Reach (· = s₁) (Admits StartsNothing) step (sys, .live job)) (i : Input)
    (hi : Enabled sys job i ∧ ¬ i.startsAnew job) (hs : jobStep plainHost sys job i = .ok s) :
    Reach (· = s₁) (Admits StartsNothing) step s :=
  .step (i := (plainHost, i)) h hi hs

/-- A class with a `pre-stop` process. -/
def stoppingClass : ClassState := ⟨1, plainClass [.main, .preStop], none, none, false, false⟩

/-- A request with one variable starts an instance of it, and another request stops that. -/
theorem reach_stopping (stopEnv : List String) :
    ∃ s₁ sys job, jobStep plainHost newWorld.sys (jobNew 1 1 stoppingClass.config "" none)
        (.classStart ["A=1"] 7 false) = .ok s₁ ∧
      Reach (· = s₁) (Admits StartsNothing) step (sys, .live job) ∧
      job.env = some ["A=1"] ∧ job.stopEnv = some stopEnv ∧ job.cls = stoppingClass.config ∧
      job.name = "" := by
  have r₀ := reach_started newWorld.sys (jobNew 1 1 stoppingClass.config "" none)
    (.classStart ["A=1"] 7 false) rfl
  have r₁ := reach_next r₀ .blockerFinished ⟨rfl, by rintro ⟨⟩⟩ rfl
  have r₂ := reach_next r₁ (.childClosed 1) ⟨rfl, by rintro ⟨⟩⟩ rfl
  have r₃ := reach_next r₂ (.classStop stopEnv 8 false) ⟨trivial, by rintro ⟨⟩⟩ rfl
  exact ⟨_, _, _, rfl, r₃, rfl, rfl, rfl, rfl⟩

/-- The `pre-stop` process of a job that one request has started and another has stopped. -/
theorem processEnvironment_merged_preStop :
    ∃ s₁ sys job table, jobStep plainHost newWorld.sys (jobNew 1 1 stoppingClass.config "" none)
        (.classStart ["A=1"] 7 false) = .ok s₁ ∧
      Reach (· = s₁) (Admits StartsNothing) step (sys, .live job) ∧ job.stopEnv = some ["B=2"] ∧
      jobProcessEnvironment plainHost.getenv none job .preStop = some table ∧
      Merged plainHost.getenv ([[], [], ["A=1"]] ++ processLayers none job .preStop) table := by
  obtain ⟨s₁, sys, job, hstep, hrun, -, hstop, -, -⟩ := reach_stopping ["B=2"]
  have h₀ : Reached Always (newWorld.sys, .live (jobNew 1 1 stoppingClass.config "" none)) :=
    reached_newRun Always stoppingClass.config
  have hi : StartEnvironment plainHost newWorld stoppingClass (.classStart ["A=1"] 7 false)
      [[], [], ["A=1"]] := .start ["A=1"] 7 false
  have hnew : (jobNew 1 1 stoppingClass.config "" none).goal ≠ .start := by decide
  have hmerged := (processEnvironment_merged none h₀ hi trivial hnew hstep (.init rfl) hrun).2
    (.inl rfl) .preStop (by rw [hstop]; decide)
  obtain ⟨table, htable, hmerge⟩ := hmerged
  exact ⟨s₁, sys, job, table, hstep, hrun, hstop, htable, hmerge⟩

/-- A stop request with a `%` in the value of a variable. -/
theorem percent_not_merged :
    ∃ s₁ sys job table, jobStep plainHost newWorld.sys (jobNew 1 1 stoppingClass.config "" none)
        (.classStart ["A=1"] 7 false) = .ok s₁ ∧
      Reach (· = s₁) (Admits StartsNothing) step (sys, .live job) ∧
      jobProcessEnvironment plainHost.getenv none job .preStop = some table ∧
      tableValue table ['B'] = some ['5', '%'] ∧
      ¬ Merged plainHost.getenv ([[], [], ["A=1"]] ++ processLayers none job .preStop) table := by
  obtain ⟨s₁, sys, job, hstep, hrun, henv, hstop, hcls, hname⟩ := reach_stopping ["B=5%%"]
  refine ⟨s₁, sys, job, ["A=1", "B=5%", "UPSTART_JOB=plain", "UPSTART_INSTANCE="], hstep, hrun,
    ?_, by decide, fun h => ?_⟩
  · unfold jobProcessEnvironment addStopEnv
    rw [henv, hstop, hcls, hname]
    rfl
  · have hvalue := h.values ['B']
    rw [processLayers, hstop, hcls, hname] at hvalue
    exact absurd hvalue (by decide)

end Startup
