import Startup.World.Poll
import Startup.Lib.Run

/-!
# Runs of init

Everything that can happen to init, in any order: clients emit events and make
requests, `event_poll` looks at an event, a job receives a notification, a
configuration file is read or deleted, the cgroup manager appears, and init
executes itself again.
-/

namespace Startup

open Lib

/-- What can happen to init. -/
inductive WorldInput where
  | emit (message : Option MessageId) (name : String) (env : List String)
      (valid : environAllValid env = true) (wait : Bool) (file : Int)
  /-- `event_poll` comes to an event of the list -/
  | poll (event : EventId) (order : HashOrder)
  /-- a request for a job, or a notification about one of its processes -/
  | job (id : JobId) (input : Input)
  | classStart (cls : ClassId) (message : MessageId) (env : List String) (wait : Bool)
  /-- a file is created or changed; `override` is its override file -/
  | load (source : Nat) (path : String) (content : Option Parsed)
      (override : Option (Option Parsed))
  | delete (source : Nat) (path : String)
  /-- the cgroup manager has become available -/
  | inductJobs (order : HashOrder)
  | reexec

/-- The inputs of a job that do not come from the handling of an event. -/
def Input.direct : Input → Prop
  | .stopEvent _ | .induct _ _ | .blockerFinished | .elsewhere _ => False
  | _ => True

/-- The step that an input makes init take. -/
def worldStep (x : Host) (w : World) : WorldInput → Except Fault World
  | .emit message name env valid wait file =>
    .ok (controlEmitEvent w message name env valid wait file)
  | .poll e order => eventPollEvent x order w e
  | .job id input => withJob w .eventPending id fun sys job => jobStep x sys job input
  | .classStart c message env wait => jobClassStart x w c message env wait
  | .load source path content override => confLoadPathWithOverride x w source path content override
  | .delete source path => confDeleteHandler w source path
  | .inductJobs order => jobClassInductJobs x order w
  | .reexec => stateFromString w

/-- The inputs that init can receive: a job that is addressed exists, and can
receive the input; a request is for a class that is registered. -/
def WorldEnabled (x : Host) (w : World) : WorldInput → Prop
  | .job id input => input.direct ∧ ∃ job, w.jobs.get? id = some job ∧ Enabled w.sys job input
  | .classStart c _ _ _ => ∃ r ∈ w.registered.items, r.cls = c
  | .inductJobs _ => x.cgroupManagerAvailable = true
  | _ => True

/-- Init has just started. -/
structure World.Initial (w : World) : Prop where
  events : w.sys.events = []
  classes : w.classes.items = []
  registered : w.registered.items = []
  jobs : w.jobs.items = []
  files : w.files = []

/-- The states of init in the runs whose inputs all meet a condition. -/
abbrev WorldReached (C : Host → World → WorldInput → Prop) : World → Prop :=
  Reach World.Initial (fun w (i : Host × WorldInput) => WorldEnabled i.1 w i.2 ∧ C i.1 w i.2)
    fun w i => worldStep i.1 w i.2

/-- No condition. -/
abbrev Anything : Host → World → WorldInput → Prop := fun _ _ _ => True

/-- Init when it has just started, with two sources of jobs. -/
def newWorld : World where
  sys := ⟨[], 0, 0, []⟩
  classes := .empty
  registered := .empty
  jobs := .empty
  files := []
  sources := ["/one", "/two"]
  jobEnviron := []
  lastClass := 0
  lastJob := 0

theorem reached_newWorld (C : Host → World → WorldInput → Prop) : WorldReached C newWorld :=
  .init ⟨rfl, rfl, rfl, rfl, rfl⟩

/-- A step of a concrete run on the plain host. -/
theorem WorldReached.next {C : Host → World → WorldInput → Prop} {w w' : World}
    (h : WorldReached C w) (i : WorldInput)
    (hi : WorldEnabled plainHost w i ∧ C plainHost w i) (hs : worldStep plainHost w i = .ok w') :
    WorldReached C w' :=
  .step (i := (plainHost, i)) h hi hs

end Startup
