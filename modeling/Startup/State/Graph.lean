import Startup.State.ClassRuns
import Startup.State.Restore
import Startup.World.Replacing

/-!
# The graph of events, classes and jobs (`init/state.c`)

`stateToJson` writes the whole state, in which an object refers to an event by its
position and to a job by the names of its class and its own.  `SameGraph` is what has to
be found again: the same references between the objects at the same places.
-/

namespace Startup

open Lib

/-! ## Writing the state -/

/-- The order in which the hash tables of the classes and of their instances yield their
entries, with the rest of what is written of the classes. -/
structure Listing (w : World) where
  classes : List ClassRecord
  classes_perm : (classes.map ClassRecord.cls).Perm
    (w.registered.items.filterMap fun r => w.classes.get? r.cls)
  jobs : ClassId → List Job
  jobs_perm : ∀ c, (jobs c).Perm (w.instances c)

/-- `event_serialise_all`. -/
def eventSerialiseAll (w : World) : Option (List Json) :=
  w.sys.events.mapM fun event => do
    let blocking ← stateSerialiseBlocking w event.blocking
    some (eventSerialise event blocking)

/-- `job_serialise_all`, for the instances of a class in some order. -/
def jobSerialiseListed (t : StateTexts) (w : World) (jobs : List Job) : Option (List Json) :=
  jobs.mapM fun job => do
    let blocking ← stateSerialiseBlocking w job.blocking
    jobSerialise t w.sys job blocking

/-- `job_class_serialise_all`. -/
def jobClassSerialiseAll (t : StateTexts) (w : World) (listing : Listing w) :
    Option (List Json) :=
  listing.classes.mapM fun r => do
    let jobs ← jobSerialiseListed t w (listing.jobs r.cls.id)
    jobClassSerialise t w.sys r jobs

/-- The fields of `state_to_string`, with the arrays of objects. -/
def stateFields (w : World) (enableCgroups : Bool)
    (controlBusAddress cgroupManagerAddress : Option String)
    (events classes confSources : List Json) : List (String × Option Json) := [
  ("events", some (.array events)),
  ("control_bus_address", some (stateSetJsonStringVar controlBusAddress)),
  ("cgroup_manager_address",
    if enableCgroups then some (stateSetJsonStringVar cgroupManagerAddress) else none),
  ("job_environment", some (stateSerialiseStrArray w.jobEnviron)),
  ("job_classes", some (.array classes)),
  ("conf_sources", some (.array confSources))]

/-- `state_to_string`. -/
def stateToJson (t : StateTexts) (w : World) (listing : Listing w) (enableCgroups : Bool)
    (controlBusAddress cgroupManagerAddress : Option String) : Option Json := do
  let events ← eventSerialiseAll w
  let classes ← jobClassSerialiseAll t w listing
  let confSources ← confSourceSerialiseAll w
  some (.record (stateFields w enableCgroups controlBusAddress cgroupManagerAddress events classes
    confSources))

/-! ## What has to be found again -/

/-- The name of the class of a job. -/
def World.classNameOf (w : World) (job : Job) : String :=
  ((w.classes.get? job.classId).map fun cls => cls.config.name).getD ""

/-- A blocked entry, with the names or the position of what it is for. -/
def World.blockedImage (w : World) : Blocked → BlockedImage
  | .job id => match w.jobs.get? id with
    | some job => .job (w.classNameOf job) job.name
    | none => .job "" ""
  | .event e => .event (w.sys.indexOf e)
  | _ => .job "" ""

/-- The blocked entries that are not for D-Bus messages. -/
def World.blockedImages (w : World) (blocking : List Blocked) : List BlockedImage :=
  (blocking.filter Blocked.written).map w.blockedImage

/-- A job with the references that it had. -/
structure JobGraph (w : World) (job : Job) (image : JobImage) : Prop where
  name : image.job.name = job.name
  blocker : image.job.blocker = job.blocker.map w.sys.indexOf
  stopOn : ∀ root, job.stopOn = some root →
    image.job.stopOn = some (root.mapRefs w.sys.indexOf)
  blocking : image.blocking = w.blockedImages job.blocking

/-- A class with the references that it had, and its instances. -/
structure ClassGraph (w : World) (jobs : List Job) (r : ClassRecord) (image : ClassImage) :
    Prop where
  name : image.record.cls.config.name = r.cls.config.name
  startOn : image.record.cls.startOn = r.cls.startOn.map (EventOperator.mapRefs w.sys.indexOf)
  stopOn : image.record.cls.stopOn = r.cls.stopOn.map (EventOperator.mapRefs w.sys.indexOf)
  jobs : List.Forall₂ (JobGraph w) jobs image.jobs

/-- The events in their order and the classes with their instances, with the references
that they had. -/
structure SameGraph (w : World) (listing : Listing w) (image : StateImage) : Prop where
  events : image.events = w.sys.events.map fun ev => ⟨ev.record, w.blockedImages ev.blocking⟩
  classes : List.Forall₂ (fun r => ClassGraph w (listing.jobs r.cls.id) r) listing.classes
    image.classes

/-- No event and no registered class has the empty name, which `event_new` and `job_class_new`
assert; `control_emit_event_with_file` and the filter for the files of a source see to it. -/
structure World.Named (w : World) : Prop where
  events : ∀ event ∈ w.sys.events, event.name ≠ ""
  classes : ∀ r ∈ w.registered.items, r.name ≠ ""

/-! ## Blocked entries -/

section Blocked

variable {t : StateTexts} {w : World} {l : Lookup}

/-- The objects of a state can be found by their positions and names. -/
structure Finds (w : World) (l : Lookup) : Prop where
  events : l.events = w.sys.events.map Event.record
  classes : ∀ name, (w.getRegistered name).isSome = true → (l.class? name).isSome = true
  jobs : ∀ job ∈ w.jobs.items, (l.job? (w.classNameOf job) job.name).isSome = true

/-- An entry whose object is there. -/
def Blocked.Known (w : World) : Blocked → Prop
  | .job id => ∃ job, w.jobs.get? id = some job ∧ (w.classes.get? job.classId).isSome = true
  | .event e => 0 < w.sys.blockers e
  | _ => True

/-- An event with blockers is found at its position, with its blockers. -/
theorem Finds.blockers (hl : Finds w l) {e : EventId} (he : 0 < w.sys.blockers e) :
    ((l.events[w.sys.indexOf e]?).any fun event => event.blockers != 0) = true := by
  have hqueued := Sys.event?_isSome_of_blockers he
  obtain ⟨hindex, -⟩ := eventToIndex_of_queued hqueued
  obtain ⟨ev, hev⟩ := Option.isSome_iff_exists.mp hqueued
  have hat : w.sys.events[w.sys.indexOf e]? = some ev := by
    rw [← hev, Sys.event?, List.find?_eq_bind_findIdx?_getElem?]
    show _ = (eventToIndex w.sys e).bind _
    rw [hindex]
    rfl
  have hne : ev.blockers ≠ 0 := by
    rw [Sys.blockers, hev] at he
    exact Nat.ne_of_gt he
  rw [hl.events, List.getElem?_map, hat]
  simpa [Event.record] using hne

theorem stateSerialiseBlocked_restored {b : Blocked} (hw : b.written = true) (hk : b.Known w) :
    ∃ json, stateSerialiseBlocked w b = some json ∧
      ∀ l, Finds w l → stateDeserialiseBlocked l json = .ok (w.blockedImage b) := by
  cases b with
  | job id =>
    obtain ⟨job, hjob, hclass⟩ := hk
    obtain ⟨cls, hcls⟩ := Option.isSome_iff_exists.mp hclass
    have hname : w.classNameOf job = cls.config.name := by rw [World.classNameOf, hcls]; rfl
    refine ⟨_, by rw [stateSerialiseBlocked, hjob]; simp only [bind, Option.bind, hcls]; rfl,
      fun l hl => ?_⟩
    have hfound := hl.jobs job (Store.mem_of_get? hjob)
    rw [hname] at hfound
    generalize hdata : Json.record [("class", some (Json.string cls.config.name)),
      ("name", some (Json.string job.name))] = data
    have hget := fun key => Json.get?_record key [("class", some (Json.string cls.config.name)),
      ("name", some (Json.string job.name))] (by simp)
    have hget' := fun key => Json.get?_record key [("data", some data),
      ("type", some (Json.string "BLOCKED_JOB"))] (by simp)
    generalize Json.record [("data", some data), ("type", some (Json.string "BLOCKED_JOB"))] = json
      at hget' ⊢
    rw [hdata] at hget
    have htype : stateGetJsonStringVarStrict json "type" = .ok "BLOCKED_JOB" :=
      stringVarStrict_ok (by rw [hget']; rfl)
    have hdata' : getEx json "data" = .ok data := getEx_ok (by rw [hget']; rfl)
    have hjobName : stateGetJsonStringVarStrict data "name" = .ok job.name :=
      stringVarStrict_ok (by rw [hget]; rfl)
    have hclassName : stateGetJsonStringVarStrict data "class" = .ok cls.config.name :=
      stringVarStrict_ok (by rw [hget]; rfl)
    rw [stateDeserialiseBlocked]
    simp only [htype, hdata', hjobName, hclassName, hfound, check_true, bind, Except.bind, if_true]
    rw [World.blockedImage, hjob]
    simp only [hname]
  | event e =>
    obtain ⟨hindex, hlt⟩ := eventToIndex_of_queued (Sys.event?_isSome_of_blockers hk)
    refine ⟨_, by rw [stateSerialiseBlocked, hindex]; rfl, fun l hl => ?_⟩
    generalize hdata : Json.record [("index", some (Json.int (w.sys.indexOf e)))] = data
    have hget := fun key => Json.get?_record key [("index", some (Json.int (w.sys.indexOf e)))]
      (by simp)
    have hget' := fun key => Json.get?_record key [("data", some data),
      ("type", some (Json.string "BLOCKED_EVENT"))] (by simp)
    generalize Json.record [("data", some data), ("type", some (Json.string "BLOCKED_EVENT"))] =
      json at hget' ⊢
    rw [hdata] at hget
    have htype : stateGetJsonStringVarStrict json "type" = .ok "BLOCKED_EVENT" :=
      stringVarStrict_ok (by rw [hget']; rfl)
    have hdata' : getEx json "data" = .ok data := getEx_ok (by rw [hget']; rfl)
    have hint : stateGetJsonIntVar data "index" = .ok (w.sys.indexOf e : Int) :=
      intVar_ok (by rw [hget]; rfl)
    have hlength : l.events.length = w.sys.events.length := by rw [hl.events, List.length_map]
    have hfrom : eventFromIndex l.events.length (w.sys.indexOf e) = .ok (w.sys.indexOf e) :=
      eventFromIndex_ok (by rw [hlength]; exact hlt)
    have hblocked := hl.blockers hk
    rw [stateDeserialiseBlocked]
    simp only [htype, hdata', hint, hfrom, hblocked, check_true, bind, Except.bind,
      String.reduceEq, if_false, if_true]
    rfl
  | _ => cases hw

/-- The list of what an object blocks, and the field that is read back: there is none
when the list is empty. -/
theorem stateSerialiseBlocking_restored {blocking : List Blocked}
    (hk : ∀ b ∈ blocking, b.written = true → b.Known w) :
    ∃ items, stateSerialiseBlocking w blocking = some items ∧
      ∀ l json, Finds w l →
        json.get? "blocking" = (if blocking.isEmpty then none else some (.array items)) →
        stateDeserialiseBlocking l json = .ok (w.blockedImages blocking) := by
  have hall : ∀ b ∈ blocking.filter Blocked.written, ∃ json, stateSerialiseBlocked w b = some json ∧
      ∀ l, Finds w l → stateDeserialiseBlocked l json = .ok (w.blockedImage b) := by
    intro b hb
    obtain ⟨hmem, hw⟩ := List.mem_filter.mp hb
    exact stateSerialiseBlocked_restored hw (hk b hmem hw)
  obtain ⟨items, hitems, hread⟩ := mapM_forall₂ hall
  refine ⟨items, hitems, fun l json hl hget => ?_⟩
  rw [stateDeserialiseBlocking, hget]
  cases blocking with
  | nil => rfl
  | cons b blocking => exact mapM_of_forall₂ hread fun b _ json hjson => hjson l hl

/-! ## Events -/

theorem eventSerialise_blocking (event : Event) (items : List Json) :
    (eventSerialise event items).get? "blocking" =
      if event.blocking.isEmpty then none else some (.array items) := by
  rw [eventSerialise, Json.get?_record _ _ (by simp)]
  rfl

/-- An event that has been written: it is read back, with what it blocks. -/
structure EventWritten (w : World) (event : Event) (json : Json) : Prop where
  isObject : json.isObject = true
  read : eventDeserialise json =
    restoreAssert .eventNew (event.name != "") >>= fun _ => .ok event.record
  blocking : ∀ l, Finds w l → stateDeserialiseBlocking l json = .ok (w.blockedImages event.blocking)

theorem eventSerialiseAll_restored
    (hk : ∀ event ∈ w.sys.events, ∀ b ∈ event.blocking, b.written = true → b.Known w) :
    ∃ items, eventSerialiseAll w = some items ∧
      List.Forall₂ (EventWritten w) w.sys.events items := by
  apply mapM_forall₂
  intro event hevent
  obtain ⟨blocking, hblocking, hread⟩ := stateSerialiseBlocking_restored (hk event hevent)
  refine ⟨eventSerialise event blocking, ?_, ⟨rfl, event_restored event blocking, ?_⟩⟩
  · rw [hblocking]
    rfl
  · intro l hl
    exact hread l _ hl (eventSerialise_blocking event blocking)

/-- The events are resolved one after the other. -/
theorem resolveEvents_restored {items : List Json} (hl : Finds w l)
    (h : List.Forall₂ (EventWritten w) w.sys.events items) :
    items.zipIdx.mapM (resolveEvent l) =
      .ok (w.sys.events.map fun ev => ⟨ev.record, w.blockedImages ev.blocking⟩) := by
  have hfrom : ∀ (pre events : List Event) items, l.events = (pre ++ events).map Event.record →
      List.Forall₂ (EventWritten w) events items →
      (items.zipIdx pre.length).mapM (resolveEvent l) =
        .ok (events.map fun ev => ⟨ev.record, w.blockedImages ev.blocking⟩) := by
    intro pre events items hevents hitems
    induction hitems generalizing pre with
    | nil => rfl
    | @cons event json events items hwritten _ ih =>
      have hat : l.events[pre.length]? = some event.record := by
        rw [hevents]
        simp
      have hstep : resolveEvent l (json, pre.length) =
          .ok ⟨event.record, w.blockedImages event.blocking⟩ := by
        simp only [resolveEvent, hwritten.isObject, check_true, hat, hwritten.blocking l hl, bind,
          Except.bind]
      have hrest := ih (pre ++ [event]) (by rw [hevents]; simp)
      rw [List.length_append, List.length_singleton] at hrest
      rw [List.zipIdx_cons, List.mapM_cons, hstep, hrest]
      rfl
  exact hfrom [] _ _ hl.events h

/-! ## Jobs and classes -/

theorem jobSerialise_get? {job : Job} {blocking : List Json} {json : Json} (key : String)
    (h : jobSerialise t w.sys job blocking = some json) :
    ∃ stopOn blocker, json.isObject = true ∧
      json.get? key = ((jobFields t job stopOn blocker blocking).lookup key).join := by
  rw [jobSerialise] at h
  obtain ⟨stopOn, -, h⟩ := Option.bind_eq_some_iff.mp h
  obtain ⟨blocker, -, h⟩ := Option.bind_eq_some_iff.mp h
  cases h
  exact ⟨stopOn, blocker, rfl, Json.get?_record _ _ (by simp [jobFields])⟩

theorem jobClassSerialise_get? {r : ClassRecord} {jobs : List Json} {json : Json} (key : String)
    (h : jobClassSerialise t w.sys r jobs = some json) :
    ∃ startOn stopOn, json.isObject = true ∧
      json.get? key = ((jobClassFields t r jobs startOn stopOn).lookup key).join := by
  rw [jobClassSerialise] at h
  obtain ⟨startOn, -, h⟩ := Option.bind_eq_some_iff.mp h
  obtain ⟨stopOn, -, h⟩ := Option.bind_eq_some_iff.mp h
  cases h
  exact ⟨startOn, stopOn, rfl, Json.get?_record _ _ (by simp [jobClassFields])⟩

/-- A job that has been written: its name and what it blocks can be read. -/
structure JobWritten (w : World) (job : Job) (json : Json) : Prop where
  isObject : json.isObject = true
  name : stateGetJsonStringVarStrict json "name" = .ok job.name
  present : (json.get? "blocking").isSome = !job.blocking.isEmpty
  blocking : ∀ l, Finds w l → stateDeserialiseBlocking l json = .ok (w.blockedImages job.blocking)

/-- A job that is read back, but for what it blocks. -/
structure JobRestored (w : World) (job job' : Job) : Prop where
  name : job'.name = job.name
  blocker : job'.blocker = job.blocker.map w.sys.indexOf
  stopOn : ∀ root, job.stopOn = some root → job'.stopOn = some (root.mapRefs w.sys.indexOf)

/-- A class that is read back with its instances, but for what they block. -/
structure ClassRestored (w : World) (jobs : List Job) (r : ClassRecord)
    (c : ClassRecord × List Job) : Prop where
  name : c.1.cls.config.name = r.cls.config.name
  startOn : c.1.cls.startOn = r.cls.startOn.map (EventOperator.mapRefs w.sys.indexOf)
  stopOn : c.1.cls.stopOn = r.cls.stopOn.map (EventOperator.mapRefs w.sys.indexOf)
  jobs : List.Forall₂ (JobRestored w) jobs c.2

/-- A class that has been written with its instances: it is read back if it has a name and can be
registered, and no kill timer is in the way. -/
structure ClassWritten (t : StateTexts) (w : World) (jobs : List Job) (r : ClassRecord)
    (json : Json) : Prop where
  isObject : json.isObject = true
  name : stateGetJsonStringVarStrict json "name" = .ok r.cls.config.name
  written : ∃ items, getArray json "jobs" = .ok items ∧ List.Forall₂ (JobWritten w) jobs items
  read : ∀ x parseOnSimple register id first,
    ((∃ c, jobClassDeserialise x t.dbusPath parseOnSimple register w.sys.events.length id first
      json = .ok c) ↔ r.cls.config.name ≠ "" ∧ register r.cls.config.name = .ok () ∧
        ∀ job ∈ jobs, job.Resumable) ∧
    ∀ c, jobClassDeserialise x t.dbusPath parseOnSimple register w.sys.events.length id first
      json = .ok c → ClassRestored w jobs r c

/-- What `state_serialise_blocking` makes of the list of a job. -/
def World.blockingItems (w : World) (job : Job) : List Json :=
  (stateSerialiseBlocking w job.blocking).getD []

theorem jobSerialiseListed_written {jobs : List Job} (hq : ∀ job ∈ jobs, JobQueued w.sys job)
    (hk : ∀ job ∈ jobs, ∀ b ∈ job.blocking, b.written = true → b.Known w) :
    jobSerialiseListed t w jobs = jobSerialiseAll t w.sys w.blockingItems jobs ∧
      ∃ items, jobSerialiseListed t w jobs = some items ∧
        List.Forall₂ (JobWritten w) jobs items := by
  have hlist : ∀ job ∈ jobs, ∃ blocking, stateSerialiseBlocking w job.blocking = some blocking ∧
      w.blockingItems job = blocking := by
    intro job hj
    obtain ⟨blocking, hblocking, -⟩ := stateSerialiseBlocking_restored (hk job hj)
    exact ⟨blocking, hblocking, by rw [World.blockingItems, hblocking]; rfl⟩
  constructor
  · apply mapM_congr_mem
    intro job hj
    obtain ⟨blocking, hblocking, hitems⟩ := hlist job hj
    rw [hblocking, hitems]
    rfl
  · apply mapM_forall₂
    intro job hj
    obtain ⟨blocking, hblocking, hread⟩ := stateSerialiseBlocking_restored (hk job hj)
    obtain ⟨hstop, hblocker⟩ := hq job hj
    obtain ⟨json, hjson, -⟩ := job_restored t plainHost (fun _ => none)
      (fun name => jobNew 1 job.classId job.cls name none) blocking hstop hblocker
    obtain ⟨_, _, hobject, hname⟩ := jobSerialise_get? "name" hjson
    obtain ⟨_, _, -, hget⟩ := jobSerialise_get? "blocking" hjson
    have hfield : json.get? "blocking" =
        if job.blocking.isEmpty then none else some (.array blocking) := hget
    refine ⟨json, ?_, hobject, stringVarStrict_ok hname, ?_, fun l hl => hread l json hl hfield⟩
    · rw [hblocking]
      exact hjson
    · rw [hfield]
      cases job.blocking.isEmpty <;> rfl

theorem forall₂_zipIdx_map {α β : Type} {P : α → β → Prop} {f : α × Nat → β} {l : List α}
    (h : ∀ a i, P a (f (a, i))) (n : Nat) : List.Forall₂ P l ((l.zipIdx n).map f) := by
  induction l generalizing n with
  | nil => exact .nil
  | cons a l ih => exact .cons (h a n) (ih (n + 1))

/-- A class of a reached state is written and read back with its instances, unless there
is one with a kill timer that cannot be set. -/
theorem jobClassSerialise_written {k : Slack} (hs : SoundWith k w) {r : ClassRecord}
    (hr : r.cls ∈ w.classes.items) {jobs : List Job} (hjobs : ∀ job ∈ jobs, job ∈ w.jobs.items)
    (hk : ∀ job ∈ jobs, ∀ b ∈ job.blocking, b.written = true → b.Known w) :
    ∃ json, (jobSerialiseListed t w jobs >>= jobClassSerialise t w.sys r) = some json ∧
      ClassWritten t w jobs r json := by
  have hq : ∀ job ∈ jobs, JobQueued w.sys job := fun job hj => hs.jobQueued (hjobs job hj)
  obtain ⟨hsame, items, hitems, hwritten⟩ := jobSerialiseListed_written (t := t) hq hk
  have hrestored := fun x parseOnSimple register id first => @jobClass_restored t w.sys r x
    parseOnSimple register id first items (fun root hroot e he => hs.classQueued hr (.inl hroot) he)
    (fun root hroot e he => hs.classQueued hr (.inr hroot) he)
  obtain ⟨json, hjson, -⟩ := hrestored plainHost (fun _ _ => none) unregistered 1 1
  obtain ⟨_, _, hobject, hname⟩ := jobClassSerialise_get? "name" hjson
  obtain ⟨_, _, -, harray⟩ := jobClassSerialise_get? "jobs" hjson
  refine ⟨json, by rw [hitems]; exact hjson, hobject, stringVarStrict_ok hname,
    ⟨items, getArray_ok harray, hwritten⟩, fun x parseOnSimple register id first => ?_⟩
  obtain ⟨json', hjson', hclass⟩ := hrestored x parseOnSimple register id first
  obtain rfl : json = json' := Option.some.inj (hjson.symm.trans hjson')
  obtain ⟨items', hitems', hread⟩ := jobs_restored t x (parseOnSimple "stop") w.blockingItems first
    (r.forming x w.sys.indexOf id) hq
  obtain rfl : items = items' := Option.some.inj ((hitems.symm.trans hsame).trans hitems')
  have hparts : ∀ c, jobClassDeserialise x t.dbusPath parseOnSimple register w.sys.events.length
      id first json = .ok c ↔ r.cls.config.name ≠ "" ∧ register r.cls.config.name = .ok () ∧
        ∃ js, ((items.zipIdx first).mapM fun item =>
          jobDeserialise x (parseOnSimple "stop") w.sys.events.length
            (fun name => jobNew item.2 id (r.forming x w.sys.indexOf id).config name
              (r.forming x w.sys.indexOf id).stopOn) item.1) = .ok js ∧
          c = (r.revived x w.sys.indexOf id, js.map fun job =>
            { job with cls := (r.revived x w.sys.indexOf id).cls.config }) := by
    intro c
    rw [hclass, check_bind_eq_ok, bne_iff_ne]
    constructor
    · rintro ⟨hnamed, hc⟩
      obtain ⟨done, hregister, hc⟩ := bind_eq_ok.mp hc
      obtain ⟨js, hjs, hc⟩ := bind_eq_ok.mp hc
      exact ⟨hnamed, hregister, js, hjs, (Except.ok.inj hc).symm⟩
    · rintro ⟨hnamed, hregister, js, hjs, rfl⟩
      exact ⟨hnamed, bind_eq_ok.mpr ⟨(), hregister, bind_eq_ok.mpr ⟨js, hjs, rfl⟩⟩⟩
  constructor
  · constructor
    · rintro ⟨c, hc⟩
      obtain ⟨hnamed, hregister, js, hjs, -⟩ := (hparts c).mp hc
      exact ⟨hnamed, hregister, ((hread js).mp hjs).1⟩
    · rintro ⟨hnamed, hregister, hresume⟩
      exact ⟨_, (hparts _).mpr ⟨hnamed, hregister, _, (hread _).mpr ⟨hresume, rfl⟩, rfl⟩⟩
  · intro c hc
    obtain ⟨-, -, js, hjs, rfl⟩ := (hparts c).mp hc
    obtain ⟨-, rfl⟩ := (hread js).mp hjs
    refine ⟨rfl, rfl, rfl, ?_⟩
    show List.Forall₂ _ _ _
    rw [List.map_map]
    apply forall₂_zipIdx_map
    intro job i
    refine ⟨rfl, rfl, fun root hroot => ?_⟩
    show (job.stopOn.map _).or _ = _
    rw [hroot]
    rfl

/-- A class can be registered when all sources are of jobs and no other has its name. -/
theorem jobClassRegister_ok {sources : List ConfSource} {registered : List String} {name : String}
    (hsources : ∀ source ∈ sources, source.type = .jobDir) (hnew : name ∉ registered) :
    jobClassRegister sources registered name = .ok () := by
  unfold jobClassRegister
  split
  · rename_i source hfound
    rw [hsources source (List.mem_of_find?_eq_some hfound)]
    rfl
  · have hcontains : (!registered.contains name) = true := by simpa using hnew
    rw [hcontains]
    rfl

theorem freeOperators_ne_ok {α : Type} (events : List EventRecord) (refs : List EventId) (a : α) :
    (freeOperators events refs : Restored α) ≠ .ok a := by
  unfold freeOperators
  rw [ne_eq, check_bind_eq_ok]
  rintro ⟨-, h⟩
  cases h

/-- All classes are read when the first and the others are. -/
theorem jobClassesFrom_cons (x : Host) (dbusPath : List String → String)
    (parseOnSimple : String → String → Option EventOperator) (sources : List ConfSource)
    {events : List EventRecord} {id : ClassId} {first : JobId} {registered : List String}
    {last : List EventId} {json : Json} {items : List Json} {cs : List (ClassRecord × List Job)}
    (hobject : json.isObject = true) :
    jobClassesFrom x dbusPath parseOnSimple sources events id first registered last
      (json :: items) = .ok cs ↔ ∃ c rest,
        jobClassDeserialise x dbusPath parseOnSimple (jobClassRegister sources registered)
          events.length id first json = .ok c ∧
        jobClassesFrom x dbusPath parseOnSimple sources events (id + 1) (first + c.2.length)
          (c.1.cls.config.name :: registered) (classOperators x dbusPath parseOnSimple events json)
          items = .ok rest ∧ cs = c :: rest := by
  rw [jobClassesFrom, hobject, if_neg (by simp)]
  dsimp only
  generalize jobClassDeserialise x dbusPath parseOnSimple (jobClassRegister sources registered)
    events.length id first json = read
  cases read with
  | error f =>
    cases f with
    | refused => exact ⟨fun h => absurd h (freeOperators_ne_ok _ _ _), by rintro ⟨c, rest, ⟨⟩, -⟩⟩
    | fault f => exact ⟨by rintro ⟨⟩, by rintro ⟨c, rest, ⟨⟩, -⟩⟩
  | ok c =>
    dsimp only
    rw [bind_eq_ok]
    constructor
    · rintro ⟨rest, hrest, h⟩
      exact ⟨c, rest, rfl, hrest, (Except.ok.inj h).symm⟩
    · rintro ⟨c', rest, hc, hrest, rfl⟩
      cases hc
      exact ⟨rest, hrest, rfl⟩

/-- The classes are read one after the other. -/
theorem jobClassesFrom_restored {rs : List ClassRecord} {jobs : ClassId → List Job}
    {items : List Json} {sources : List ConfSource}
    (hsources : ∀ source ∈ sources, source.type = .jobDir) {events : List EventRecord}
    (hevents : events.length = w.sys.events.length) (x : Host)
    (parseOnSimple : String → String → Option EventOperator)
    (h : List.Forall₂ (fun r => ClassWritten t w (jobs r.cls.id) r) rs items)
    (hnodup : (rs.map fun r => r.cls.config.name).Nodup) (id : ClassId) (first : JobId)
    (registered : List String) (hnew : ∀ r ∈ rs, r.cls.config.name ∉ registered)
    (last : List EventId) :
    ((∃ cs, jobClassesFrom x t.dbusPath parseOnSimple sources events id first registered last
      items = .ok cs) ↔
      (∀ r ∈ rs, r.cls.config.name ≠ "") ∧ ∀ r ∈ rs, ∀ job ∈ jobs r.cls.id, job.Resumable) ∧
    ∀ cs, jobClassesFrom x t.dbusPath parseOnSimple sources events id first registered last
      items = .ok cs → List.Forall₂ (fun r => ClassRestored w (jobs r.cls.id) r) rs cs := by
  induction h generalizing id first registered last with
  | nil => exact ⟨⟨fun _ => ⟨fun r hr => absurd hr List.not_mem_nil,
      fun r hr => absurd hr List.not_mem_nil⟩, fun _ => ⟨[], rfl⟩⟩, fun cs hcs => by
        cases hcs
        exact .nil⟩
  | @cons r json rs items hwritten _ ih =>
    obtain ⟨hiff, hclass⟩ := hwritten.read x parseOnSimple (jobClassRegister sources registered)
      id first
    rw [jobClassRegister_ok hsources (hnew r List.mem_cons_self)] at hiff
    rw [List.map_cons, List.nodup_cons] at hnodup
    have hstep : ∀ cs, jobClassesFrom x t.dbusPath parseOnSimple sources events id first registered
        last (json :: items) = .ok cs ↔ _ := fun _ =>
      jobClassesFrom_cons x t.dbusPath parseOnSimple sources hwritten.isObject
    rw [hevents] at hstep
    have hnext : ∀ c, jobClassDeserialise x t.dbusPath parseOnSimple
        (jobClassRegister sources registered) w.sys.events.length id first json = .ok c →
        ∀ r' ∈ rs, r'.cls.config.name ∉ c.1.cls.config.name :: registered := by
      intro c hc r' hr' hmem
      rw [(hclass c hc).name] at hmem
      rcases List.mem_cons.mp hmem with heq | hmem
      · exact hnodup.1 (heq ▸ List.mem_map_of_mem (f := fun r => r.cls.config.name) hr')
      · exact hnew r' (List.mem_cons_of_mem _ hr') hmem
    constructor
    · rw [List.forall_mem_cons, List.forall_mem_cons]
      constructor
      · rintro ⟨cs, hcs⟩
        obtain ⟨c, rest, hc, hrest, -⟩ := (hstep cs).mp hcs
        obtain ⟨hnamed, -, hresume⟩ := hiff.mp ⟨c, hc⟩
        obtain ⟨hnames, hall⟩ := (ih hnodup.2 _ _ _ (hnext c hc) _).1.mp ⟨rest, hrest⟩
        exact ⟨⟨hnamed, hnames⟩, hresume, hall⟩
      · rintro ⟨⟨hnamed, hnames⟩, hresume, hall⟩
        obtain ⟨c, hc⟩ := hiff.mpr ⟨hnamed, rfl, hresume⟩
        obtain ⟨rest, hrest⟩ := (ih hnodup.2 (id + 1) (first + c.2.length) _ (hnext c hc) _).1.mpr
          ⟨hnames, hall⟩
        exact ⟨c :: rest, (hstep _).mpr ⟨c, rest, hc, hrest, rfl⟩⟩
    · intro cs hcs
      obtain ⟨c, rest, hc, hrest, rfl⟩ := (hstep cs).mp hcs
      exact .cons (hclass c hc) ((ih hnodup.2 _ _ _ (hnext c hc) _).2 rest hrest)

/-! ## Reached states -/

section Sound

variable {leak : EventId → Nat}

/-- What an event blocks is there. -/
theorem WorldSound.eventKnown (hs : WorldSound leak w) {event : Event}
    (hevent : event ∈ w.sys.events) {b : Blocked} (hb : b ∈ event.blocking)
    (hw : b.written = true) : b.Known w := by
  cases b with
  | job id =>
    have hcount := hs.ties.entries event hevent id
    have hpos := List.count_pos_iff.mpr hb
    have hblocker : blockerOf w.jobs id = some event.id := by
      by_contra hne
      rw [if_neg hne] at hcount
      have hzero : event.blocking.count (.job id) = 0 := hcount
      omega
    obtain ⟨job, hjob, -⟩ := Option.bind_eq_some_iff.mp hblocker
    obtain ⟨cls, hcls, -⟩ := hs.housing.homes job (Store.mem_of_get? hjob)
    exact ⟨job, hjob, by rw [hcls]; rfl⟩
  | event e => exact absurd (hs.ties.plain event hevent _ hb) (by simp [Blocked.event?])
  | _ => cases hw

/-- What a job blocks is there. -/
theorem WorldSound.jobKnown (hs : WorldSound leak w) {job : Job} (hj : job ∈ w.jobs.items)
    {b : Blocked} (hb : b ∈ job.blocking) (hw : b.written = true) : b.Known w := by
  cases b with
  | job id =>
    have hno : (Blocked.job id).mayWait = false := rfl
    exact absurd (hs.accounts.entries job hj _ hb) (by simp [hno])
  | event e =>
    have hle := hs.accounts.job_le hj e
    have hmem : e ∈ job.refs :=
      List.mem_append_right _ (List.mem_filterMap.mpr ⟨.event e, hb, rfl⟩)
    exact Nat.lt_of_lt_of_le (List.count_pos_iff.mpr hmem) hle
  | _ => cases hw

/-- A class that is written is the one that is registered under its name. -/
theorem Listing.registered (hs : WorldSound leak w) (listing : Listing w) {r : ClassRecord}
    (hr : r ∈ listing.classes) :
    w.classes.get? r.cls.id = some r.cls ∧
      w.getRegistered r.cls.config.name = some r.cls.id := by
  have hmem : r.cls ∈ w.registered.items.filterMap fun reg => w.classes.get? reg.cls :=
    listing.classes_perm.mem_iff.mp (List.mem_map_of_mem hr)
  obtain ⟨reg, hreg, hget⟩ := List.mem_filterMap.mp hmem
  have hid : r.cls.id = reg.cls := Store.key_of_get? hget
  obtain ⟨cls, hcls, hname⟩ := hs.housing.known reg hreg
  rw [hget] at hcls
  cases hcls
  refine ⟨hid ▸ hget, ?_⟩
  rw [World.getRegistered, hname, show reg.name = key reg from rfl, Store.get?_of_mem hreg, hid]
  rfl

/-- A registered class is written. -/
theorem Listing.mem_of_registered (hs : WorldSound leak w) (listing : Listing w) {name : String}
    {c : ClassId} (hc : w.getRegistered name = some c) :
    ∃ r ∈ listing.classes, r.cls.id = c ∧ r.cls.config.name = name := by
  obtain ⟨reg, hreg, hcls⟩ := Option.map_eq_some_iff.mp hc
  obtain ⟨cls, hget, hname⟩ := hs.housing.known reg (Store.mem_of_get? hreg)
  have hmem : cls ∈ listing.classes.map ClassRecord.cls := by
    apply listing.classes_perm.mem_iff.mpr
    exact List.mem_filterMap.mpr ⟨reg, Store.mem_of_get? hreg, hget⟩
  obtain ⟨r, hr, rfl⟩ := List.mem_map.mp hmem
  refine ⟨r, hr, (Store.key_of_get? hget).trans hcls, hname.trans ?_⟩
  exact Store.key_of_get? hreg

/-- No two classes that are written have the same name. -/
theorem Listing.names_nodup (hs : WorldSound leak w) (listing : Listing w) :
    (listing.classes.map fun r => r.cls.config.name).Nodup := by
  have hnames : ∀ regs : List Registration, (∀ reg ∈ regs, reg ∈ w.registered.items) →
      ((regs.filterMap fun reg => w.classes.get? reg.cls).map fun cls => cls.config.name) =
        regs.map Registration.name := by
    intro regs hregs
    induction regs with
    | nil => rfl
    | cons reg regs ih =>
      obtain ⟨cls, hget, hname⟩ := hs.housing.known reg (hregs reg List.mem_cons_self)
      rw [List.filterMap_cons, hget, List.map_cons, List.map_cons, hname,
        ih fun reg' h => hregs reg' (List.mem_cons_of_mem _ h)]
  have hperm := listing.classes_perm.map fun cls => cls.config.name
  rw [List.map_map, hnames _ fun _ h => h] at hperm
  exact hperm.nodup_iff.mpr w.registered.nodup

/-- The classes that are written have names when those that are registered do. -/
theorem Listing.forall_names (hs : WorldSound leak w) (listing : Listing w) :
    (∀ r ∈ listing.classes, r.cls.config.name ≠ "") ↔ ∀ r ∈ w.registered.items, r.name ≠ "" := by
  constructor
  · intro hall reg hreg
    have hget : w.getRegistered reg.name = some reg.cls := by
      rw [World.getRegistered, show reg.name = key reg from rfl, Store.get?_of_mem hreg]
      rfl
    obtain ⟨r, hr, -, hname⟩ := listing.mem_of_registered hs hget
    exact hname ▸ hall r hr
  · intro hall r hr
    obtain ⟨reg, hreg, -⟩ := Option.map_eq_some_iff.mp (listing.registered hs hr).2
    exact Store.key_of_get? hreg ▸ hall reg (Store.mem_of_get? hreg)

theorem Listing.mem_jobs (listing : Listing w) {c : ClassId} {job : Job} :
    job ∈ listing.jobs c ↔ job ∈ w.jobs.items ∧ job.classId = c := by
  rw [(listing.jobs_perm c).mem_iff, World.instances, List.mem_filter, decide_eq_true_eq]

/-- No two instances of a class have the same name. -/
theorem Listing.job_names_nodup (hs : WorldSound leak w) (listing : Listing w) (c : ClassId) :
    ((listing.jobs c).map Job.name).Nodup := by
  have hnodup : (listing.jobs c).Nodup := by
    apply (listing.jobs_perm c).nodup_iff.mpr
    exact (List.Nodup.of_map _ w.jobs.nodup).filter _
  apply hnodup.map_on
  intro job hj job' hj' hname
  rw [listing.mem_jobs] at hj hj'
  have hid : job.id = job'.id := hs.names job' hj'.1 job hj.1 (hj.2.trans hj'.2.symm) hname
  have hget := Store.get?_of_mem hj.1
  have hget' := Store.get?_of_mem hj'.1
  rw [show key job = job.id from rfl, hid] at hget
  exact Option.some.inj (hget.symm.trans hget')

theorem classNameOf_of_mem (hs : WorldSound leak w) (listing : Listing w) {r : ClassRecord}
    (hr : r ∈ listing.classes) {job : Job} (hj : job ∈ listing.jobs r.cls.id) :
    w.classNameOf job = r.cls.config.name := by
  rw [World.classNameOf, (listing.mem_jobs.mp hj).2, (listing.registered hs hr).1]
  rfl

/-- What has been read back has every object under its position or name. -/
theorem finds_of_restored (hs : WorldSound leak w) (listing : Listing w)
    {cs : List (ClassRecord × List Job)}
    (h : List.Forall₂ (fun r => ClassRestored w (listing.jobs r.cls.id) r) listing.classes cs) :
    Finds w ⟨w.sys.events.map Event.record, cs⟩ := by
  have hclass : ∀ r ∈ listing.classes, ∃ p,
      Lookup.class? ⟨w.sys.events.map Event.record, cs⟩ r.cls.config.name = some p ∧
        ClassRestored w (listing.jobs r.cls.id) r p := fun r hr =>
    find?_of_forall₂ h (fun r p hp => hp.name) (listing.names_nodup hs) hr
  refine ⟨rfl, fun name hname => ?_, fun job hj => ?_⟩
  · obtain ⟨c, hc⟩ := Option.isSome_iff_exists.mp hname
    obtain ⟨r, hr, -, rfl⟩ := listing.mem_of_registered hs hc
    obtain ⟨p, hp, -⟩ := hclass r hr
    rw [hp]
    rfl
  · obtain ⟨cls, -, hreg⟩ := hs.housing.homes job hj
    obtain ⟨r, hr, hid, -⟩ := listing.mem_of_registered hs hreg
    have hmem : job ∈ listing.jobs r.cls.id := listing.mem_jobs.mpr ⟨hj, hid.symm⟩
    obtain ⟨p, hp, hrestored⟩ := hclass r hr
    obtain ⟨job', hjob', -⟩ := find?_of_forall₂ hrestored.jobs (fun job job' h => h.name)
      (listing.job_names_nodup hs r.cls.id) hmem
    rw [classNameOf_of_mem hs listing hr hmem, Lookup.job?, hp]
    show (p.2.find? _).isSome = true
    rw [hjob']
    rfl

end Sound

/-! ## What jobs block -/

/-- What is found of the blocked list of a job: nothing when it is empty. -/
def World.jobBlocked (w : World) (job : Job) : Option (String × List BlockedImage) :=
  if job.blocking.isEmpty then none else some (job.name, w.blockedImages job.blocking)

theorem resolveJob_restored (hl : Finds w l) {job : Job} {json : Json} {className : String}
    (h : JobWritten w job json) (hj : job ∈ w.jobs.items) (hclass : w.classNameOf job = className) :
    resolveJob l className json = .ok (w.jobBlocked job) := by
  have hfound := hl.jobs job hj
  rw [hclass] at hfound
  rw [resolveJob, check_bind_eq_ok]
  refine ⟨h.isObject, ?_⟩
  have hpresent := h.present
  cases hget : json.get? "blocking" with
  | none =>
    rw [hget] at hpresent
    have hempty : job.blocking.isEmpty = true := by simpa using hpresent
    simp only [World.jobBlocked, hempty, if_true]
  | some items =>
    rw [hget] at hpresent
    have hempty : job.blocking.isEmpty = false := by simpa using hpresent
    simp only [h.name, hfound, check_true, h.blocking l hl, bind, Except.bind, World.jobBlocked,
      hempty, Bool.false_eq_true, if_false]

theorem resolveClass_restored (hl : Finds w l) {r : ClassRecord} {jobs : List Job} {json : Json}
    (h : ClassWritten t w jobs r json) (hreg : (w.getRegistered r.cls.config.name).isSome = true)
    (hjobs : ∀ job ∈ jobs, job ∈ w.jobs.items ∧ w.classNameOf job = r.cls.config.name) :
    resolveClass l json = .ok (r.cls.config.name, jobs.filterMap w.jobBlocked) := by
  obtain ⟨items, hitems, hwritten⟩ := h.written
  have hall : items.mapM (resolveJob l r.cls.config.name) = .ok (jobs.map w.jobBlocked) :=
    mapM_of_forall₂ hwritten fun job hj json hjson =>
      resolveJob_restored hl hjson (hjobs job hj).1 (hjobs job hj).2
  rw [resolveClass, check_bind_eq_ok]
  refine ⟨h.isObject, ?_⟩
  simp only [h.name, hl.classes _ hreg, check_true, hitems, hall, bind, Except.bind,
    List.filterMap_map]
  rfl

/-- A job gets back what it blocked. -/
theorem jobBlocked_filter {jobs : List Job} (hnodup : (jobs.map Job.name).Nodup) {job : Job}
    (hj : job ∈ jobs) :
    ((jobs.filterMap w.jobBlocked).filter fun p => p.1 = job.name).flatMap Prod.snd =
      w.blockedImages job.blocking := by
  have hname : ∀ job' : Job, ((w.jobBlocked job').filter fun p => p.1 = job.name) =
      if job'.name = job.name then w.jobBlocked job' else none := by
    intro job'
    rw [World.jobBlocked]
    by_cases hempty : job'.blocking.isEmpty = true
    · simp [hempty]
    · by_cases heq : job'.name = job.name
      · simp [hempty, heq, Option.filter]
      · simp [hempty, heq, Option.filter]
  have hswap : (jobs.filterMap w.jobBlocked).filter (fun p => p.1 = job.name) =
      (jobs.filter fun job' => job'.name = job.name).filterMap w.jobBlocked := by
    rw [List.filter_filterMap, List.filterMap_filter]
    simp only [hname, decide_eq_true_eq]
  rw [hswap, filter_key_eq hnodup hj, List.filterMap_cons, World.jobBlocked]
  cases hblocking : job.blocking with
  | nil => rfl
  | cons b blocking => simp

/-- The classes with their instances and what these block. -/
theorem attachBlocking_restored {leak : EventId → Nat} (hs : WorldSound leak w)
    (listing : Listing w) {cs : List (ClassRecord × List Job)}
    (h : List.Forall₂ (fun r => ClassRestored w (listing.jobs r.cls.id) r) listing.classes cs) :
    List.Forall₂ (fun r => ClassGraph w (listing.jobs r.cls.id) r) listing.classes
      (attachBlocking (listing.classes.map fun r =>
        (r.cls.config.name, (listing.jobs r.cls.id).filterMap w.jobBlocked)) cs) := by
  have hblocking : ∀ r ∈ listing.classes, ∀ job ∈ listing.jobs r.cls.id,
      blockingOf (listing.classes.map fun r =>
        (r.cls.config.name, (listing.jobs r.cls.id).filterMap w.jobBlocked))
        r.cls.config.name job.name = w.blockedImages job.blocking := by
    intro r hr job hj
    rw [blockingOf, List.filter_map]
    show ((listing.classes.filter fun r' => r'.cls.config.name = r.cls.config.name).map _).flatMap _
      = _
    rw [filter_key_eq (f := fun r : ClassRecord => r.cls.config.name) (listing.names_nodup hs) hr,
      List.map_singleton, List.flatMap_singleton]
    exact jobBlocked_filter (listing.job_names_nodup hs _) hj
  rw [attachBlocking, List.forall₂_map_right_iff]
  generalize (listing.classes.map fun r =>
    (r.cls.config.name, (listing.jobs r.cls.id).filterMap w.jobBlocked)) = found at hblocking
  have hmem := (List.forall₂_and_left _ _).mpr ⟨fun r hr => hr, h⟩
  refine hmem.imp ?_
  rintro r p ⟨hr, hp⟩
  refine ⟨hp.name, hp.startOn, hp.stopOn, ?_⟩
  rw [List.forall₂_map_right_iff]
  have hjobs := (List.forall₂_and_left _ _).mpr ⟨fun job hj => hj, hp.jobs⟩
  refine hjobs.imp ?_
  rintro job job' ⟨hj, hjob⟩
  refine ⟨hjob.name, hjob.blocker, hjob.stopOn, ?_⟩
  show blockingOf found p.1.cls.config.name job'.name = _
  rw [hp.name, hjob.name]
  exact hblocking r hr job hj

/-! ## Configuration -/

/-- Every file of a source that has a class can be written: a class is registered under
the name of its own. -/
def ConfWritable (w : World) : Prop :=
  ∀ file ∈ w.files, file.source < w.sources.length → ∀ c, file.job = some c →
    ∃ cls, w.classes.get? c = some cls ∧ (w.getRegistered cls.config.name).isSome = true

theorem confWritable_one {source : Nat} {path : String} {c : ClassId} {cls : ClassState}
    (hfiles : w.files = [⟨source, path, some c⟩]) (hget : w.classes.get? c = some cls)
    (hreg : w.getRegistered cls.config.name = some c) : ConfWritable w := by
  intro file hfile _ c' hc'
  rw [hfiles, List.mem_singleton] at hfile
  subst hfile
  obtain rfl := Option.some.inj hc'
  exact ⟨cls, hget, by rw [hreg]; rfl⟩

theorem confFileSerialise_eq (w : World) (file : ConfFile) :
    confFileSerialise w file = none ∨ ∃ name : Option String, confFileSerialise w file =
      some (.record [("path", some (.string file.path)), ("conf_source", some (.int file.source)),
        ("flag", some (.int 0)),
        ("job_class", name.map fun name => .record [("name", some (.string name))])]) := by
  rw [confFileSerialise]
  cases file.job with
  | none => exact .inr ⟨none, rfl⟩
  | some c =>
    rcases hcls : w.classes.get? c with _ | cls
    · exact .inl (by simp [hcls])
    rcases hreg : w.getRegistered cls.config.name with _ | registered
    · exact .inl (by simp [hcls, hreg])
    rcases hfound : w.classes.get? registered with _ | found
    · exact .inl (by simp [hcls, hreg, hfound])
    · exact .inr ⟨some found.config.name, by simp [hcls, hreg, hfound]⟩

theorem confFile_restored {file : ConfFile} {json : Json}
    (h : confFileSerialise w file = some json) : confFileDeserialise json = .ok (file.path, 0) := by
  rcases confFileSerialise_eq w file with hnone | ⟨name, hsome⟩
  · rw [hnone] at h
    cases h
  · rw [hsome] at h
    cases h
    generalize hjob : (name.map fun name => Json.record [("name", some (.string name))]) = job
    have hget := fun key => Json.get?_record key [("path", some (.string file.path)),
      ("conf_source", some (.int file.source)), ("flag", some (.int 0)), ("job_class", job)]
      (by simp)
    rw [confFileDeserialise, check_bind_eq_ok]
    refine ⟨rfl, ?_⟩
    generalize Json.record [("path", some (.string file.path)),
      ("conf_source", some (.int file.source)), ("flag", some (.int 0)), ("job_class", job)] = json
      at hget ⊢
    have hpath : stateGetJsonStringVarStrict json "path" = .ok file.path :=
      stringVarStrict_ok (by rw [hget]; rfl)
    have hflag : stateGetJsonIntVar json "flag" = .ok 0 := intVar_ok (by rw [hget]; rfl)
    simp only [hpath, hflag, bind, Except.bind]

theorem confSource_restored {path : String} {source : Nat} {json : Json}
    (h : confSourceSerialise w path source = some json) :
    ∃ found : ConfSource, found.type = .jobDir ∧ (do
      restoreIf json.isObject
      confSourceDeserialise json) = .ok found := by
  obtain ⟨files, hfiles, h⟩ := Option.bind_eq_some_iff.mp h
  cases h
  have hall : ∀ file ∈ w.files.filter fun file => file.source = source,
      ∃ json, confFileSerialise w file = some json ∧
        confFileDeserialise json = .ok (file.path, 0) := by
    intro file hfile
    obtain ⟨json, hjson⟩ := Option.isSome_iff_exists.mp (isSome_of_mapM hfiles hfile)
    exact ⟨json, hjson, confFile_restored hjson⟩
  obtain ⟨files', hfiles', hread⟩ := mapM_forall₂ hall
  rw [hfiles] at hfiles'
  cases hfiles'
  have hitems : files.mapM confFileDeserialise = .ok _ := mapM_of_forall₂ hread fun _ _ _ h => h
  have hget := fun key => Json.get?_record key [("path", some (.string path)),
    ("type", some (.string (confSourceTypeEnumToStr .jobDir))), ("flag", some (.int 0)),
    ("conf_files", some (.array files))] (by simp)
  refine ⟨⟨path, .jobDir, 0, (w.files.filter fun file => file.source = source).map
    fun file => (file.path, 0)⟩, rfl, check_bind_eq_ok.mpr ⟨rfl, ?_⟩⟩
  generalize Json.record [("path", some (.string path)),
    ("type", some (.string (confSourceTypeEnumToStr .jobDir))), ("flag", some (.int 0)),
    ("conf_files", some (.array files))] = json at hget ⊢
  have hpath : stateGetJsonStringVarStrict json "path" = .ok path :=
    stringVarStrict_ok (by rw [hget]; rfl)
  have htype : stateGetJsonEnumVar confSourceTypeStrToEnum json "type" = .ok .jobDir :=
    enumVar_ok (by rw [hget]; rfl) rfl
  have hflag : stateGetJsonIntVar json "flag" = .ok 0 := intVar_ok (by rw [hget]; rfl)
  have harray : getArray json "conf_files" = .ok files := getArray_ok (by rw [hget]; rfl)
  rw [confSourceDeserialise]
  simp only [hpath, htype, hflag, harray, hitems, bind, Except.bind]

/-- The sources can be written exactly when their files can. -/
theorem confSourceSerialiseAll_isSome {leak : EventId → Nat} (hs : WorldSound leak w) :
    (confSourceSerialiseAll w).isSome = true ↔ ConfWritable w := by
  have hfile : ∀ file, (confFileSerialise w file).isSome = true ↔ ∀ c, file.job = some c →
      ∃ cls, w.classes.get? c = some cls ∧ (w.getRegistered cls.config.name).isSome = true := by
    intro file
    rw [confFileSerialise]
    cases hjob : file.job with
    | none => simp
    | some c =>
      cases hcls : w.classes.get? c with
      | none => simp [hcls]
      | some cls =>
        cases hreg : w.getRegistered cls.config.name with
        | none => simp [hcls, hreg]
        | some registered =>
          obtain ⟨reg, hmem, hid⟩ := Option.map_eq_some_iff.mp hreg
          obtain ⟨found, hfound, -⟩ := hs.housing.known reg (Store.mem_of_get? hmem)
          rw [hid] at hfound
          simp [hcls, hreg, hfound]
  constructor
  · intro h file hmem hlt c hc
    obtain ⟨items, hitems⟩ := Option.isSome_iff_exists.mp h
    have hsource : (w.sources[file.source], file.source) ∈ w.sources.zipIdx := by
      rw [List.mem_zipIdx_iff_getElem?]
      exact List.getElem?_eq_getElem hlt
    obtain ⟨json, hjson⟩ := Option.isSome_iff_exists.mp (isSome_of_mapM hitems hsource)
    obtain ⟨files, hfiles, -⟩ := Option.bind_eq_some_iff.mp hjson
    have hfound := isSome_of_mapM hfiles (List.mem_filter.mpr ⟨hmem, by simp⟩)
    exact (hfile file).mp hfound c hc
  · intro h
    have hall : ∀ source ∈ w.sources.zipIdx, ∃ json,
        confSourceSerialise w source.1 source.2 = some json ∧ True := by
      rintro ⟨path, source⟩ hsource
      have hlt : source < w.sources.length := by
        rw [List.mem_zipIdx_iff_getElem?] at hsource
        exact (List.getElem?_eq_some_iff.mp hsource).1
      have hfiles : ∀ file ∈ w.files.filter fun file => file.source = source, ∃ json,
          confFileSerialise w file = some json ∧ True := by
        intro file hfiltered
        obtain ⟨hmem, heq⟩ := List.mem_filter.mp hfiltered
        have hsame : file.source = source := by simpa using heq
        obtain ⟨json, hjson⟩ := Option.isSome_iff_exists.mp
          ((hfile file).mpr (h file hmem (hsame ▸ hlt)))
        exact ⟨json, hjson, trivial⟩
      obtain ⟨files, hfiles, -⟩ := mapM_forall₂ hfiles
      exact ⟨_, by rw [confSourceSerialise, hfiles]; rfl, trivial⟩
    obtain ⟨items, hitems, -⟩ := mapM_forall₂ hall
    rw [confSourceSerialiseAll, hitems]
    rfl

theorem confSources_restored {items : List Json} (h : confSourceSerialiseAll w = some items)
    {json : Json} (hget : json.get? "conf_sources" = some (.array items)) :
    ∃ sources : List ConfSource, (∀ source ∈ sources, source.type = .jobDir) ∧
      confSourcesStrict json = .ok sources := by
  have hall : ∀ item ∈ items, ∃ found : ConfSource, found.type = .jobDir ∧ (do
      restoreIf item.isObject
      confSourceDeserialise item) = .ok found := by
    intro item hitem
    obtain ⟨source, -, hsource⟩ := exists_of_mem_mapM h hitem
    exact confSource_restored hsource
  obtain ⟨sources, hdirs, hsources⟩ := exists_mapM_ok hall
  exact ⟨sources, hdirs, bind_eq_ok.mpr ⟨items, getArray_ok hget, hsources⟩⟩

/-! ## The whole state -/

theorem address_restored (address : Option String) :
    addressDeserialise (stateSetJsonStringVar address) = .ok address := by
  cases address <;> rfl

theorem jobEnviron_restored (env : List String) :
    jobClassDeserialiseJobEnviron (stateSerialiseStrArray env) = .ok env := by
  show stateDeserialiseStrArray (env.map .string) = .ok env
  exact strArray_ok env

/-- The classes of a reached state are written, and read back when no kill timer is in
the way. -/
theorem classes_written {leak : EventId → Nat} (hs : WorldSound leak w) (listing : Listing w) :
    ∃ items, jobClassSerialiseAll t w listing = some items ∧
      List.Forall₂ (fun r => ClassWritten t w (listing.jobs r.cls.id) r) listing.classes items := by
  apply mapM_forall₂
  intro r hr
  have hmem : ∀ job ∈ listing.jobs r.cls.id, job ∈ w.jobs.items := fun job hj =>
    (listing.mem_jobs.mp hj).1
  exact jobClassSerialise_written hs (Store.mem_of_get? (listing.registered hs hr).1) hmem
    fun job hj b hb hw => hs.jobKnown (hmem job hj) hb hw

theorem resolved_restored {leak : EventId → Nat} (hs : WorldSound leak w) (listing : Listing w)
    {json : Json} {events classes : List Json} {cs : List (ClassRecord × List Job)}
    (hevents : json.get? "events" = some (.array events))
    (hclasses : json.get? "job_classes" = some (.array classes))
    (hw : List.Forall₂ (EventWritten w) w.sys.events events)
    (hw' : List.Forall₂ (fun r => ClassWritten t w (listing.jobs r.cls.id) r) listing.classes
      classes)
    (hcs : List.Forall₂ (fun r => ClassRestored w (listing.jobs r.cls.id) r) listing.classes cs) :
    ∃ images, stateDeserialiseResolveDeps ⟨w.sys.events.map Event.record, cs⟩ json =
      .ok (w.sys.events.map fun ev => ⟨ev.record, w.blockedImages ev.blocking⟩, images) ∧
      List.Forall₂ (fun r => ClassGraph w (listing.jobs r.cls.id) r) listing.classes images := by
  have hl := finds_of_restored hs listing hcs
  have hfound : classes.mapM (resolveClass ⟨w.sys.events.map Event.record, cs⟩) =
      .ok (listing.classes.map fun r =>
        (r.cls.config.name, (listing.jobs r.cls.id).filterMap w.jobBlocked)) := by
    apply mapM_of_forall₂ hw'
    intro r hr json hjson
    apply resolveClass_restored hl hjson
    · rw [(listing.registered hs hr).2]
      rfl
    · exact fun job hj => ⟨(listing.mem_jobs.mp hj).1, classNameOf_of_mem hs listing hr hj⟩
  refine ⟨_, ?_, attachBlocking_restored hs listing hcs⟩
  rw [stateDeserialiseResolveDeps]
  simp only [getArray_ok hevents, resolveEvents_restored hl hw, getArray_ok hclasses, hfound, bind,
    Except.bind]

theorem restoreSection_eq_some {α β : Type} {ret r : Int} {m : Restored α} {b : β}
    {next : α → Except Fault (Int × Option β)} :
    restoreSection ret m next = .ok (r, some b) ↔ ∃ a, m = .ok a ∧ next a = .ok (r, some b) := by
  rcases m with (f | _) | a <;> simp [restoreSection]

/-- A state that is restored has its classes restored. -/
theorem stateFromString_classes {x : Host} {dbusPath : List String → String}
    {tokener : String → Option Json}
    {parseOnSimple : String → String → Option EventOperator} {enableCgroups : Bool} {text : String}
    {json : Json} {r : Int} {image : StateImage} (htext : tokener text = some json)
    (h : StateImage.stateFromString x dbusPath tokener parseOnSimple enableCgroups text =
      .ok (r, some image)) :
    ∃ events sources classes, eventDeserialiseAll json = .ok events ∧
      optionalSection json "conf_sources" [] (fun _ => confSourceDeserialiseAll json) =
        .ok sources ∧
      jobClassDeserialiseAll x dbusPath parseOnSimple sources events json = .ok classes := by
  rw [StateImage.stateFromString, htext] at h
  dsimp only at h
  split at h
  · cases h
  · obtain ⟨events, hevents, h⟩ := restoreSection_eq_some.mp h
    rw [stateFromStringSections] at h
    simp only [restoreSection_eq_some] at h
    obtain ⟨_, -, _, -, sources, hsources, _, -, classes, hclasses, -⟩ := h
    exact ⟨events, sources, classes, hevents, hsources, hclasses⟩

/-- The fields of the state are found again. -/
theorem stateFields_get? (w : World) (enableCgroups : Bool) (bus manager : Option String)
    (events classes sources : List Json) (key : String) :
    (Json.record (stateFields w enableCgroups bus manager events classes sources)).get? key =
      ((stateFields w enableCgroups bus manager events classes sources).lookup key).join :=
  Json.get?_record _ _ (by simp [stateFields])

/-- The events are read back if they have names. -/
theorem eventDeserialiseAll_restored {json : Json} {items : List Json}
    (hget : json.get? "events" = some (.array items))
    (hw : List.Forall₂ (EventWritten w) w.sys.events items) {records : List EventRecord} :
    eventDeserialiseAll json = .ok records ↔
      (∀ event ∈ w.sys.events, event.name ≠ "") ∧ records = w.sys.events.map Event.record := by
  rw [eventDeserialiseAll, getArray_ok hget]
  show items.mapM eventDeserialise = .ok records ↔ _
  clear hget
  generalize w.sys.events = events at hw ⊢
  induction hw generalizing records with
  | nil => exact ⟨fun h => ⟨fun _ h => absurd h List.not_mem_nil, (Except.ok.inj h).symm⟩,
      fun h => h.2 ▸ rfl⟩
  | @cons event json events items hwritten _ ih =>
    have hone : ∀ record, eventDeserialise json = .ok record ↔
        event.name ≠ "" ∧ record = event.record := by
      intro record
      rw [hwritten.read, check_bind_eq_ok, bne_iff_ne, Except.ok.injEq, eq_comm (b := record)]
    rw [List.mapM_cons, bind_eq_ok, List.forall_mem_cons, List.map_cons]
    constructor
    · rintro ⟨record, hrecord, htail⟩
      obtain ⟨rest, hrest, hrecords⟩ := bind_eq_ok.mp htail
      obtain ⟨hnamed, rfl⟩ := (hone record).mp hrecord
      obtain ⟨hnames, rfl⟩ := ih.mp hrest
      exact ⟨⟨hnamed, hnames⟩, (Except.ok.inj hrecords).symm⟩
    · rintro ⟨⟨hnamed, hnames⟩, rfl⟩
      exact ⟨_, (hone _).mpr ⟨hnamed, rfl⟩, bind_eq_ok.mpr ⟨_, ih.mpr ⟨hnames, rfl⟩, rfl⟩⟩

/-- A reached state is written with its events and classes, when its sources are. -/
theorem stateToJson_written {leak : EventId → Nat} (hs : WorldSound leak w) (listing : Listing w)
    (enableCgroups : Bool) (bus manager : Option String) :
    ∃ events classes, List.Forall₂ (EventWritten w) w.sys.events events ∧
      List.Forall₂ (fun r => ClassWritten t w (listing.jobs r.cls.id) r) listing.classes classes ∧
      ∀ json, stateToJson t w listing enableCgroups bus manager = some json ↔
        ∃ sources, confSourceSerialiseAll w = some sources ∧
          json = .record (stateFields w enableCgroups bus manager events classes sources) := by
  obtain ⟨events, hevents, hwritten⟩ := eventSerialiseAll_restored fun event hevent b hb hw =>
    hs.eventKnown hevent hb hw
  obtain ⟨classes, hclasses, hwritten'⟩ := classes_written hs listing
  refine ⟨events, classes, hwritten, hwritten', fun json => ?_⟩
  rw [stateToJson, hevents, hclasses]
  show (confSourceSerialiseAll w).bind _ = some json ↔ _
  rw [Option.bind_eq_some_iff]
  simp only [Option.some.injEq, eq_comm (a := json)]

/-- The instances of the classes that are written are all jobs. -/
theorem Listing.forall_jobs {leak : EventId → Nat} (hs : WorldSound leak w) (listing : Listing w)
    {P : Job → Prop} :
    (∀ r ∈ listing.classes, ∀ job ∈ listing.jobs r.cls.id, P job) ↔
      ∀ job ∈ w.jobs.items, P job := by
  constructor
  · intro hr job hj
    obtain ⟨cls, -, hreg⟩ := hs.housing.homes job hj
    obtain ⟨r, hmem, hid, -⟩ := listing.mem_of_registered hs hreg
    exact hr r hmem job (listing.mem_jobs.mpr ⟨hj, hid.symm⟩)
  · intro hall r _ job hj
    exact hall job (listing.mem_jobs.mp hj).1

/-- The section of the sources gives sources of jobs. -/
theorem sourcesSection_restored {json : Json} {items : List Json}
    (h : confSourceSerialiseAll w = some items)
    (hget : json.get? "conf_sources" = some (.array items)) :
    ∃ found : List ConfSource, (∀ source ∈ found, source.type = .jobDir) ∧
      (optionalSection json "conf_sources" [] fun _ => confSourcesStrict json) = .ok found ∧
      (optionalSection json "conf_sources" [] fun _ => confSourceDeserialiseAll json) =
        .ok found := by
  obtain ⟨found, hdirs, hfound⟩ := confSources_restored h hget
  refine ⟨found, hdirs, ?_, ?_⟩
  · rw [optionalSection, hget]
    exact hfound
  · rw [optionalSection, hget]
    exact confSourceDeserialiseAll_of_strict hfound

/-- When the state is restored, everything has a name and no kill timer is in the way. -/
theorem resumable_of_restored {leak : EventId → Nat} (hs : WorldSound leak w) (listing : Listing w)
    {x : Host} {tokener : String → Option Json}
    {parseOnSimple : String → String → Option EventOperator} {enableCgroups : Bool}
    {bus manager : Option String} {json : Json} {text : String} {r : Int} {image : StateImage}
    (hjson : stateToJson t w listing enableCgroups bus manager = some json)
    (htext : tokener text = some json)
    (h : StateImage.stateFromString x t.dbusPath tokener parseOnSimple enableCgroups text =
      .ok (r, some image)) : w.Named ∧ ∀ job ∈ w.jobs.items, job.Resumable := by
  obtain ⟨events, classes, hwritten, hwritten', hwrite⟩ :=
    stateToJson_written (t := t) hs listing enableCgroups bus manager
  obtain ⟨sources, hsources, rfl⟩ := (hwrite json).mp hjson
  have hget := stateFields_get? w enableCgroups bus manager events classes sources
  obtain ⟨events', sources', classes', hevents', hsources', hclasses'⟩ :=
    stateFromString_classes htext h
  obtain ⟨hnames, rfl⟩ := (eventDeserialiseAll_restored (hget "events") hwritten).mp hevents'
  obtain ⟨found, hdirs, -, hfound⟩ := sourcesSection_restored hsources (hget "conf_sources")
  obtain rfl := Except.ok.inj (hfound.symm.trans hsources')
  rw [jobClassDeserialiseAll, getArray_ok (hget "job_classes")] at hclasses'
  obtain ⟨hnamed, hresume⟩ := (jobClassesFrom_restored hdirs (List.length_map _) x parseOnSimple
    hwritten' (listing.names_nodup hs) 1 1 [] (fun _ _ => List.not_mem_nil) []).1.mp
      ⟨classes', hclasses'⟩
  exact ⟨⟨hnames, (listing.forall_names hs).mp hnamed⟩, (listing.forall_jobs hs).mp hresume⟩

/-- When everything has a name and no kill timer is in the way, the state is restored. -/
theorem restored_of_resumable {leak : EventId → Nat} (hs : WorldSound leak w) (listing : Listing w)
    (x : Host) {tokener : String → Option Json}
    (parseOnSimple : String → String → Option EventOperator) {enableCgroups : Bool}
    {bus manager : Option String} {json : Json} {text : String}
    (hjson : stateToJson t w listing enableCgroups bus manager = some json)
    (htext : tokener text = some json) (hnamed : w.Named)
    (hres : ∀ job ∈ w.jobs.items, job.Resumable) :
    ∃ image, StateImage.stateFromString x t.dbusPath tokener parseOnSimple enableCgroups text =
      .ok (0, some image) ∧ SameGraph w listing image := by
  obtain ⟨events, classes, hwritten, hwritten', hwrite⟩ :=
    stateToJson_written (t := t) hs listing enableCgroups bus manager
  obtain ⟨sources, hsources, rfl⟩ := (hwrite json).mp hjson
  have hget := stateFields_get? w enableCgroups bus manager events classes sources
  obtain ⟨found, hdirs, hfound, -⟩ := sourcesSection_restored hsources (hget "conf_sources")
  have hlength : (w.sys.events.map Event.record).length = w.sys.events.length :=
    List.length_map _
  obtain ⟨hresume, hrestored⟩ := jobClassesFrom_restored hdirs hlength x parseOnSimple hwritten'
    (listing.names_nodup hs) 1 1 [] (fun _ _ => List.not_mem_nil) []
  obtain ⟨cs, hcs⟩ := hresume.mpr
    ⟨(listing.forall_names hs).mpr hnamed.classes, (listing.forall_jobs hs).mpr hres⟩
  obtain ⟨images, hresolved, hgraph⟩ := resolved_restored hs listing (hget "events")
    (hget "job_classes") hwritten hwritten' (hrestored cs hcs)
  have hevents := (eventDeserialiseAll_restored (hget "events") hwritten).mpr
    ⟨hnamed.events, rfl⟩
  have hbus := hget "control_bus_address"
  have hmanager := hget "cgroup_manager_address"
  have henviron := hget "job_environment"
  have hclasses := hget "job_classes"
  refine ⟨⟨_, bus, if enableCgroups then manager else none, found, w.jobEnviron, images⟩, ?_,
    ⟨rfl, hgraph⟩⟩
  rw [StateImage.stateFromString, htext]
  show restoreSection (-1) (eventDeserialiseAll _) _ = _
  rw [hevents]
  apply stateFromStringSections_of_laterSections
  generalize Json.record (stateFields w enableCgroups bus manager events classes sources) = json
    at hbus hmanager hfound henviron hclasses hresolved ⊢
  have hclasses' : jobClassDeserialiseAll x t.dbusPath parseOnSimple found
      (w.sys.events.map Event.record) json = .ok cs := by
    rw [jobClassDeserialiseAll, getArray_ok hclasses]
    exact hcs
  have hbus' : getOptionalAddress json "control_bus_address" = .ok bus := by
    rw [getOptionalAddress, hbus]
    exact address_restored bus
  have hmanager' : (if enableCgroups then getOptionalAddress json "cgroup_manager_address"
      else .ok none) = .ok (if enableCgroups then manager else none) := by
    cases enableCgroups with
    | false => rfl
    | true =>
      show getOptionalAddress json "cgroup_manager_address" = .ok manager
      rw [getOptionalAddress, hmanager]
      exact address_restored manager
  have henviron' : optionalSection json "job_environment" [] jobClassDeserialiseJobEnviron =
      .ok w.jobEnviron := by
    rw [optionalSection, henviron]
    exact jobEnviron_restored w.jobEnviron
  simp only [laterSections, hbus', hmanager', hfound, henviron', hclasses', hresolved, bind,
    Except.bind]

end Blocked

/-! ## What state_from_string restores -/

/-- `state_to_string` and `state_from_string` restore the graph of a reached state exactly
when every pending kill timer can be set again, every file with a class has a
registered class of that name, and no name is empty. -/
theorem reached_stateRestored {C : Host → World → WorldInput → Prop} {w : World}
    (h : WorldReached C w) (listing : Listing w) (t : StateTexts) (x : Host)
    {tokener : String → Option Json} {print : Json → String} (parseOnSimple : String → String → Option EventOperator)
    (enableCgroups : Bool) (controlBusAddress cgroupManagerAddress : Option String)
    (hprint : ∀ json, stateToJson t w listing enableCgroups controlBusAddress cgroupManagerAddress =
      some json → tokener (print json) = some json) :
    (∃ json image,
      stateToJson t w listing enableCgroups controlBusAddress cgroupManagerAddress = some json ∧
      StateImage.stateFromString x t.dbusPath tokener parseOnSimple enableCgroups (print json) =
        .ok (0, some image) ∧ SameGraph w listing image) ↔
      (∀ job ∈ w.jobs.items, job.Resumable) ∧ ConfWritable w ∧ w.Named := by
  obtain ⟨leak, hs⟩ := reached_worldSound h
  obtain ⟨events, classes, -, -, hwrite⟩ :=
    stateToJson_written (t := t) hs listing enableCgroups controlBusAddress cgroupManagerAddress
  rw [← confSourceSerialiseAll_isSome hs, Option.isSome_iff_exists]
  constructor
  · rintro ⟨json, image, hjson, hread, -⟩
    obtain ⟨sources, hsources, -⟩ := (hwrite json).mp hjson
    obtain ⟨hnamed, hres⟩ := resumable_of_restored hs listing hjson (hprint json hjson) hread
    exact ⟨hres, ⟨sources, hsources⟩, hnamed⟩
  · rintro ⟨hres, ⟨sources, hsources⟩, hnamed⟩
    have hjson := (hwrite _).mpr ⟨sources, hsources, rfl⟩
    obtain ⟨image, hread, hgraph⟩ :=
      restored_of_resumable hs listing x parseOnSimple hjson (hprint _ hjson) hnamed hres
    exact ⟨_, image, hjson, hread, hgraph⟩

mutual

/-- `json_object_to_json_string`. -/
def jsonObjectToJsonString : Json → String
  | .null => "null"
  | .boolean b => if b then "true" else "false"
  | .int n => toString n
  | .double digits => digits
  | .string s => s.quote
  | .array items => "[ " ++ ", ".intercalate (jsonItemTexts items) ++ " ]"
  | .object fields => "\x7b " ++ ", ".intercalate (jsonFieldTexts fields) ++ " \x7d"

def jsonItemTexts : List Json → List String
  | [] => []
  | json :: items => jsonObjectToJsonString json :: jsonItemTexts items

def jsonFieldTexts : List (String × Json) → List String
  | [] => []
  | (name, json) :: fields =>
    (name.quote ++ ": " ++ jsonObjectToJsonString json) :: jsonFieldTexts fields

end

/-- A job that waits for its starting event is restored with its blocker. -/
theorem reached_stateRestored_starting :
    ∃ w, ∃ listing : Listing w, ∃ tokener json image, WorldReached Anything w ∧
      (∃ job, w.jobs.items = [job] ∧ job.blocker = some 1) ∧
      stateToJson plainTexts w listing true none none = some json ∧
      tokener (jsonObjectToJsonString json) = some json ∧
      StateImage.stateFromString plainHost jobPath tokener (fun _ _ => none) true
        (jsonObjectToJsonString json) = .ok (0, some image) ∧ SameGraph w listing image := by
  have h₁ := (reached_newWorld Anything).next
    (.load 1 "/two/a.conf" (some envParsed) none) ⟨trivial, trivial⟩ rfl
  have h₂ := h₁.next (.classStart 1 7 [] false) ⟨⟨_, .head _, rfl⟩, trivial⟩ rfl
  obtain ⟨w, hw, hnames, hclasses, ⟨job, hjobs, hblocker, htimer⟩, hfiles, hget, hreg⟩ :
      ∃ w, WorldReached Anything w ∧
        (w.sys.events.map Event.name = ["starting"] ∧
          w.registered.items.map Registration.name = ["a"]) ∧
        (w.registered.items.filterMap fun r => w.classes.get? r.cls) =
          [parsedClass 1 "a" envParsed] ∧
        (∃ job, w.jobs.items = [job] ∧ job.blocker = some 1 ∧ job.killTimer = none) ∧
        w.files = [⟨1, "/two/a.conf", some 1⟩] ∧
        w.classes.get? 1 = some (parsedClass 1 "a" envParsed) ∧ w.getRegistered "a" = some 1 :=
    ⟨_, h₂, ⟨rfl, rfl⟩, rfl, ⟨_, rfl, rfl, rfl⟩, rfl, rfl, rfl⟩
  let listing : Listing w := ⟨[⟨parsedClass 1 "a" envParsed, plainDetails, rfl⟩],
    by rw [hclasses]; exact .refl _, w.instances, fun _ => .refl _⟩
  let tokener : String → Option Json := fun text =>
    (stateToJson plainTexts w listing true none none).filter fun json =>
      jsonObjectToJsonString json = text
  have hprint : ∀ json, stateToJson plainTexts w listing true none none = some json →
      tokener (jsonObjectToJsonString json) = some json := by
    intro json hjson
    show (stateToJson plainTexts w listing true none none).filter _ = _
    rw [hjson]
    simp
  have hres : ∀ job ∈ w.jobs.items, job.Resumable := by
    intro job' hj
    rw [hjobs, List.mem_singleton] at hj
    exact resumable_of_none (hj ▸ htimer)
  have hconf : ConfWritable w := confWritable_one hfiles hget hreg
  have hnamed : w.Named := by
    constructor
    · intro event hevent
      have hmem := List.mem_map_of_mem (f := Event.name) hevent
      rw [hnames.1, List.mem_singleton] at hmem
      rw [hmem]
      decide
    · intro r hr
      have hmem := List.mem_map_of_mem (f := Registration.name) hr
      rw [hnames.2, List.mem_singleton] at hmem
      rw [hmem]
      decide
  obtain ⟨json, image, hjson, hread, hgraph⟩ := (reached_stateRestored hw listing plainTexts
    plainHost (fun _ _ => none) true none none hprint).mpr ⟨hres, hconf, hnamed⟩
  exact ⟨w, listing, tokener, json, image, hw, ⟨job, hjobs, hblocker⟩, hjson, hprint json hjson,
    hread, hgraph⟩

/-- With a job whose main process has been sent its kill signal, no state is restored. -/
theorem killTimer_state_not_restored :
    ∃ w, ∃ listing : Listing w, WorldReached Anything w ∧
      (stateToJson plainTexts w listing true none none).isSome = true ∧
      ∀ tokener parseOnSimple text json r image,
        stateToJson plainTexts w listing true none none = some json → tokener text = some json →
          StateImage.stateFromString plainHost jobPath tokener parseOnSimple true text ≠
            .ok (r, some image) := by
  have h₁ := (reached_newWorld Anything).next
    (.load 1 "/two/a.conf" (some envParsed) none) ⟨trivial, trivial⟩ rfl
  have h₂ := h₁.next (.classStart 1 7 [] false) ⟨⟨_, .head _, rfl⟩, trivial⟩ rfl
  have h₃ := h₂.next (.poll 1 listOrder) ⟨trivial, trivial⟩ rfl
  have h₄ := h₃.next (.job 1 (.childClosed 1)) ⟨⟨trivial, _, rfl, rfl⟩, trivial⟩ rfl
  have h₅ := h₄.next (.job 1 (.changeGoal .stop)) ⟨⟨trivial, _, rfl, by simp [Enabled]⟩, trivial⟩ rfl
  have h₆ := h₅.next (.poll 3 listOrder) ⟨trivial, trivial⟩ rfl
  obtain ⟨w, hw, hclasses, ⟨job, hjobs, due, htimer, hmain⟩, hfiles, hget, hreg⟩ :
      ∃ w, WorldReached Anything w ∧
        (w.registered.items.filterMap fun r => w.classes.get? r.cls) =
          [parsedClass 1 "a" envParsed] ∧
        (∃ job, w.jobs.items = [job] ∧ ∃ due, job.killTimer = some due ∧
          job.killProcess = some .main) ∧
        w.files = [⟨1, "/two/a.conf", some 1⟩] ∧
        w.classes.get? 1 = some (parsedClass 1 "a" envParsed) ∧ w.getRegistered "a" = some 1 :=
    ⟨_, h₆, rfl, ⟨_, rfl, _, rfl, rfl⟩, rfl, rfl, rfl⟩
  let listing : Listing w := ⟨[⟨parsedClass 1 "a" envParsed, plainDetails, rfl⟩],
    by rw [hclasses]; exact .refl _, w.instances, fun _ => .refl _⟩
  obtain ⟨leak, hs⟩ := reached_worldSound hw
  have hconf : ConfWritable w := confWritable_one hfiles hget hreg
  refine ⟨w, listing, hw, ?_, fun tokener parseOnSimple text json r image hjson htext hread => ?_⟩
  · obtain ⟨events, classes, -, -, hwrite⟩ :=
      stateToJson_written (t := plainTexts) hs listing true none none
    obtain ⟨sources, hsources⟩ := Option.isSome_iff_exists.mp
      ((confSourceSerialiseAll_isSome hs).mpr hconf)
    rw [(hwrite _).mpr ⟨sources, hsources, rfl⟩]
    rfl
  · have hmem : job ∈ w.jobs.items := by rw [hjobs]; exact .head _
    have hres := (resumable_of_restored hs listing hjson htext hread).2 job hmem
    exact (hres due htimer).1 hmain

end Startup
