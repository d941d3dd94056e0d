import Startup.State.Classes
import Startup.State.Conditions
import Startup.World.Files

/-!
# A class from the state (`init/job_class.c`, `init/job.c`, `init/event_operator.c`)

`job_class_deserialise` as it changes init: the class is made and tied to its file before most of
its fields are read, and is freed when one of them is refused.

* `readOperators`: the operators of a condition, which refer to events without blocking them.
* `readJob`, `readClass`: an instance and a class, up to the field that is refused.
* `jobClassDeserialiseIn`: the class, or what is left when it has been freed.
* `operatorsRead`: the events of the operators that are read before a field is refused.

The fields between the conditions are read by the functions that `jobDeserialise` and
`jobClassDeserialise` are made of; those of `ClassDetails` and the output of the processes are not
kept here.  An event is meant by its position in the queue.
-/

namespace Startup

open Lib

/-- `event_operator_deserialise`; the event is the one at the position. -/
def readOperator (queue : List EventId) (json : Json) : Restored OperatorNode := do
  let node ← eventOperatorDeserialise queue.length json
  .ok { node with event := node.event.map fun i => queue.getD i 0 }

/-- What a field for a condition has. -/
inductive ConditionRead where
  | failed
  /-- there is no field, or its text is empty -/
  | absent
  | array (root : EventOperator)
  /-- the form of older versions -/
  | text (new : Unmatched)

/-- The condition that has been read. -/
def ConditionRead.root : ConditionRead → Option EventOperator
  | failed => none
  | absent => none
  | array root => some root
  | text new => some new.root

/-- The fields behind the condition, with the event at the position of the blocker. -/
def JobTail.at (tail : JobTail) (queue : List EventId) : JobTail :=
  { tail with blocker := tail.blocker.map fun i => queue.getD i 0 }

/-- An instance that is being read: `held` are the events of the operators that it owns besides
those of its condition. -/
structure JobMaking where
  sys : Sys
  held : List EventId
  job : Job

section Read

variable (x : Host) (dbusPath : List String → String)
  (parseOnSimple : String → String → Option Unmatched) (queue : List EventId)

/-- A class that is being read: `held` are the events of the operators that it and its instances
own besides those of their conditions. -/
structure Making where
  world : World
  held : List EventId

/-- `job_class_add_safe`. -/
def jobClassAddSafe (w : World) (cls : ClassState) : Except Fault World := do
  nihAssert .jobClassAddSafe (w.getRegistered cls.config.name).isNone
  jobClassAdd w (some cls.id)

/-- `job_class_new`, and the file that `conf_file_find` gives is tied to the class. -/
def makeClass (w : World) (cls : ClassState) : World :=
  { w.putClass cls with
    lastClass := cls.id
    files := w.files.map fun file =>
      if (confFileFind w cls.config.name).any fun found =>
          found.source = file.source ∧ found.path = file.path then
        { file with job := some cls.id }
      else file }

end Read

/-! ## Which operators are read -/

section Made

variable {α : Type} (x : Host) (dbusPath : List String → String)
  (parseOnSimple : String → String → Option α) (queue : List EventId)

/-- The events of the operators of an array, up to the one that is refused. -/
def operatorsMade : List Json → List EventId
  | [] => []
  | json :: items =>
    match readOperator queue json with
    | .ok node => node.event.toList ++ operatorsMade items
    | .error _ => []

/-- The events of the operators of a condition. -/
def conditionMade (json : Json) (name : String) : List EventId :=
  match json.get? name with
  | some (.array items) => operatorsMade queue items
  | _ => []

/-- A condition is not refused. -/
def conditionReads (parse : String → Option α) (json : Json) (name : String) : Bool :=
  match json.get? name with
  | none => true
  | some (.array items) => items.all fun item => (readOperator queue item).isOk
  | some _ =>
    match stateGetJsonStringVarStrict json name with
    | .ok text => text = "" || (parse text).isSome
    | .error _ => false

/-- The events of the operators of an instance. -/
def jobMade (json : Json) : List EventId :=
  if json.isObject && (readJobHead x json).isOk then conditionMade queue json "stop_on" else []

/-- An instance is not refused. -/
def jobReads (json : Json) : Bool :=
  json.isObject && (readJobHead x json).isOk &&
    conditionReads queue (parseOnSimple "stop") json "stop_on" &&
    (readJobTail queue.length json).isOk

/-- The events of the operators of instances, up to the one that is refused. -/
def jobsMade : List Json → List EventId
  | [] => []
  | json :: items =>
    jobMade x queue json ++ if jobReads x parseOnSimple queue json then jobsMade items else []

/-- The events of the operators of a class and its instances that are read until a field is
refused. -/
def operatorsRead (name : String) (json : Json) : List EventId :=
  if (readClassHead x dbusPath name json).isOk then
    conditionMade queue json "start_on" ++
      if conditionReads queue (parseOnSimple "start") json "start_on" then
        conditionMade queue json "stop_on" ++
          if conditionReads queue (parseOnSimple "stop") json "stop_on" &&
              (readClassTail json).isOk then
            match getArray json "jobs" with
            | .ok items => jobsMade x parseOnSimple queue items
            | .error _ => []
          else []
      else []
  else []

end Made

end Startup
