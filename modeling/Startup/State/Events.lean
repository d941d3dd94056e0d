import Startup.State.Fields
import Startup.World.State

/-!
# Events and conditions in the state (`init/event.c`, `init/event_operator.c`)

References to an event are written as its position in the queue, and read back
as a position in the queue that has been restored.  In what is restored, an
`EventId` is such a position.
-/

namespace Startup

open Lib

/-! ## Enumerations -/

/-- `event_progress_enum_to_str`. -/
def eventProgressEnumToStr : EventProgress → String
  | .pending => "EVENT_PENDING"
  | .handling => "EVENT_HANDLING"
  | .finished => "EVENT_FINISHED"

/-- `event_progress_str_to_enum`. -/
def eventProgressStrToEnum (progress : String) : Option EventProgress :=
  if progress = "EVENT_PENDING" then some .pending
  else if progress = "EVENT_HANDLING" then some .handling
  else if progress = "EVENT_FINISHED" then some .finished
  else none

theorem eventProgress_restored (p : EventProgress) :
    eventProgressStrToEnum (eventProgressEnumToStr p) = some p := by
  cases p <;> decide

/-- `EventOperatorType`. -/
inductive EventOperatorType where
  | eventOr
  | eventAnd
  | eventMatch
  deriving DecidableEq

/-- `event_operator_type_enum_to_str`. -/
def eventOperatorTypeEnumToStr : EventOperatorType → String
  | .eventOr => "EVENT_OR"
  | .eventAnd => "EVENT_AND"
  | .eventMatch => "EVENT_MATCH"

/-- `event_operator_type_str_to_enum`. -/
def eventOperatorTypeStrToEnum (type : String) : Option EventOperatorType :=
  if type = "EVENT_OR" then some .eventOr
  else if type = "EVENT_AND" then some .eventAnd
  else if type = "EVENT_MATCH" then some .eventMatch
  else none

theorem eventOperatorType_restored (t : EventOperatorType) :
    eventOperatorTypeStrToEnum (eventOperatorTypeEnumToStr t) = some t := by
  cases t <;> decide

/-! ## Positions in the queue -/

/-- `event_to_index`. -/
def eventToIndex (sys : Sys) (e : EventId) : Option Nat :=
  sys.events.findIdx? fun ev => ev.id = e

/-- `event_from_index`, for a queue of `n` events. -/
def eventFromIndex (n : Nat) (i : Int) : Restored EventId := do
  restoreAssert .eventFromIndex (decide (0 ≤ i))
  restoreIf (decide (i.toNat < n))
  .ok i.toNat

/-- The position of an event that is in the queue. -/
def Sys.indexOf (sys : Sys) (e : EventId) : Nat := (eventToIndex sys e).getD 0

theorem eventToIndex_of_queued {sys : Sys} {e : EventId} (h : (sys.event? e).isSome = true) :
    eventToIndex sys e = some (sys.indexOf e) ∧ sys.indexOf e < sys.events.length := by
  have hmem : ∃ ev ∈ sys.events, ev.id = e := by simpa [Sys.event?, List.find?_isSome] using h
  obtain ⟨ev, hev, hid⟩ := hmem
  cases hi : eventToIndex sys e with
  | none =>
    have := List.findIdx?_eq_none_iff.mp hi ev hev
    simp [hid] at this
  | some i =>
    obtain ⟨hlt, -⟩ := List.findIdx?_eq_some_iff_getElem.mp hi
    simpa [Sys.indexOf, hi] using hlt

theorem eventFromIndex_ok {n i : Nat} (h : i < n) : eventFromIndex n i = .ok i := by
  simp [eventFromIndex, h, bind, Except.bind]

/-! ## Conditions -/

/-- `event_operator_serialise` of a node with its own fields. -/
def eventOperatorSerialise (sys : Sys) (type : EventOperatorType) (value : Bool)
    (name : Option String) (env : List String) (event : Option EventId) : Option Json := do
  let index ← event.mapM (eventToIndex sys)
  some (.record [
    ("type", some (.string (eventOperatorTypeEnumToStr type))),
    ("value", some (jsonBool value)),
    ("name", name.map .string),
    ("env", if env.isEmpty then none else some (stateSerialiseStrArray env)),
    ("event", index.map fun i : Nat => .int i)])

/-- The nodes of `event_operator_serialise_all`, in post-order. -/
def eventOperatorSerialiseNodes (sys : Sys) : EventOperator → Option (List Json)
  | .eventMatch name env value event => do
    let node ← eventOperatorSerialise sys .eventMatch value (some name) env event
    some [node]
  | .eventAnd value l r => do
    let left ← eventOperatorSerialiseNodes sys l
    let right ← eventOperatorSerialiseNodes sys r
    let node ← eventOperatorSerialise sys .eventAnd value none [] none
    some (left ++ right ++ [node])
  | .eventOr value l r => do
    let left ← eventOperatorSerialiseNodes sys l
    let right ← eventOperatorSerialiseNodes sys r
    let node ← eventOperatorSerialise sys .eventOr value none [] none
    some (left ++ right ++ [node])

/-- `event_operator_serialise_all`. -/
def eventOperatorSerialiseAll (sys : Sys) (root : EventOperator) : Option Json :=
  (eventOperatorSerialiseNodes sys root).map .array

/-- A node as `event_operator_deserialise` returns it, without children. -/
structure OperatorNode where
  type : EventOperatorType
  name : Option String
  env : List String
  value : Bool
  event : Option EventId

/-- The variables of a node or an event, which may be missing. -/
def getOptionalEnv (json : Json) : Restored (List String) :=
  match json.get? "env" with
  | none => .ok []
  | some _ => do
    let items ← getArray json "env"
    stateDeserialiseStrArray items

/-- A position that may be missing. -/
def getOptionalEvent (n : Nat) (json : Json) (name : String) : Restored (Option EventId) :=
  match json.get? name with
  | none => .ok none
  | some _ => do
    let i ← stateGetJsonIntVar json name
    let e ← eventFromIndex n i
    .ok (some e)

/-- The name of a leaf; the other nodes have none. -/
def getOptionalName (json : Json) : Restored (Option String) :=
  match json.get? "name" with
  | none => .ok none
  | some _ => do
    let name ← stateGetJsonStringVarStrict json "name"
    .ok (some name)

/-- `event_operator_deserialise`, for a queue of `n` events. -/
def eventOperatorDeserialise (n : Nat) (json : Json) : Restored OperatorNode := do
  restoreIf json.isObject
  let name ← getOptionalName json
  let type ← stateGetJsonEnumVar eventOperatorTypeStrToEnum json "type"
  let env ← getOptionalEnv json
  -- the assertions of `event_operator_new`
  restoreAssert .eventOperatorNew (type == .eventMatch || name.isNone)
  restoreAssert .eventOperatorNew (type == .eventMatch || env.isEmpty)
  restoreAssert .eventOperatorNew (type != .eventMatch || name.isSome)
  let value ← stateGetJsonBoolVar json "value"
  let event ← getOptionalEvent n json "event"
  .ok ⟨type, name, env, value, event⟩

/-- One step of the loop in `event_operator_deserialise_all`: the operator takes
its children from the stack, the right one first. -/
def pushOperator (n : Nat) (stack : List EventOperator) (json : Json) :
    Restored (List EventOperator) := do
  let node ← eventOperatorDeserialise n json
  match node.type, stack with
  | .eventMatch, _ =>
    .ok (.eventMatch (node.name.getD "") node.env node.value node.event :: stack)
  | .eventAnd, right :: left :: stack => .ok (.eventAnd node.value left right :: stack)
  | .eventOr, right :: left :: stack => .ok (.eventOr node.value left right :: stack)
  | _, _ => .error (.fault (.assertFailed .eventOperatorDeserialiseAll))

/-- `event_operator_deserialise_all`. -/
def eventOperatorDeserialiseAll (n : Nat) (items : List Json) : Restored EventOperator := do
  match ← items.foldlM (pushOperator n) [] with
  | [root] => .ok root
  | _ => .error (.fault (.assertFailed .eventOperatorDeserialiseAll))

/-- A condition whose references are changed. -/
def EventOperator.mapRefs (f : EventId → EventId) : EventOperator → EventOperator
  | .eventMatch name env value event => .eventMatch name env value (event.map f)
  | .eventAnd value l r => .eventAnd value (l.mapRefs f) (r.mapRefs f)
  | .eventOr value l r => .eventOr value (l.mapRefs f) (r.mapRefs f)

/-! ## Events -/

/-- An event as it is restored; its place in the list is its position. -/
structure EventRecord where
  name : String
  env : List String
  fd : Int
  progress : EventProgress
  failed : Bool
  blockers : Nat

/-- `event_serialise`.  `blocking` is what `state_serialise_blocking` makes of the
list of blocked entries. -/
def eventSerialise (event : Event) (blocking : List Json) : Json :=
  .record [
    ("name", some (.string event.name)),
    ("env", if event.env.isEmpty then none else some (stateSerialiseStrArray event.env)),
    ("fd", some (.int event.fd)),
    ("progress", some (.string (eventProgressEnumToStr event.progress))),
    ("failed", some (jsonBool event.failed)),
    ("blockers", some (.int event.blockers)),
    ("blocking", if event.blocking.isEmpty then none else some (.array blocking))]

/-- `event_deserialise`: the blocked entries follow when all objects are there. -/
def eventDeserialise (json : Json) : Restored EventRecord := do
  restoreIf json.isObject
  let name ← readOrFree .eventDeserialise (stateGetJsonStringVarStrict json "name")
  let env ← readOrFree .eventDeserialise (getOptionalEnv json)
  restoreAssert .eventNew (name != "")
  let fd ← stateGetJsonIntVar json "fd"
  let progress ← stateGetJsonEnumVar eventProgressStrToEnum json "progress"
  let failed ← stateGetJsonBoolVar json "failed"
  let blockers ← match json.get? "blockers" with
    | none => .ok 0
    | some _ => stateGetJsonIntVar json "blockers"
  .ok ⟨name, env, fd, progress, failed, blockers.toNat⟩

/-- `event_deserialise_all`. -/
def eventDeserialiseAll (json : Json) : Restored (List EventRecord) := do
  let items ← getArray json "events"
  items.mapM eventDeserialise

/-! ## What is read back -/

section Restored

variable {sys : Sys} {n : Nat}

theorem optionalEnv_ok {json : Json} {env : List String}
    (h : json.get? "env" = if env.isEmpty then none else some (stateSerialiseStrArray env)) :
    getOptionalEnv json = .ok env := by
  cases env with
  | nil => simp only [getOptionalEnv, h, List.isEmpty_nil, if_true]
  | cons s env =>
    have hget : json.get? "env" = some (.array ((s :: env).map .string)) := h
    rw [getOptionalEnv]
    simp only [hget]
    rw [getArray_ok hget]
    exact strArray_ok (s :: env)

theorem optionalEvent_ok {json : Json} {name : String} {event : Option EventId}
    (h : json.get? name = event.map fun i : Nat => .int i) (hn : ∀ i, event = some i → i < n) :
    getOptionalEvent n json name = .ok event := by
  cases event with
  | none => simp only [getOptionalEvent, h, Option.map_none]
  | some i =>
    have hget : json.get? name = some (.int i) := h
    rw [getOptionalEvent]
    simp only [hget]
    rw [intVar_ok hget]
    simp only [bind, Except.bind, eventFromIndex_ok (hn i rfl)]

theorem optionalName_ok {json : Json} {name : Option String}
    (h : json.get? "name" = name.map .string) : getOptionalName json = .ok name := by
  cases name with
  | none => simp only [getOptionalName, h, Option.map_none]
  | some s =>
    have hget : json.get? "name" = some (.string s) := h
    rw [getOptionalName]
    simp only [hget]
    rw [stringVarStrict_ok hget]
    rfl

/-- A node is read back as it has been written. -/
theorem eventOperator_restored (type : EventOperatorType) (value : Bool) (name : Option String)
    (env : List String) (event : Option EventId)
    (hname : name.isSome = (type == .eventMatch)) (henv : env.isEmpty = true ∨ type = .eventMatch)
    (hevent : ∀ e, event = some e → (sys.event? e).isSome = true)
    (hn : sys.events.length = n) :
    ∃ json, eventOperatorSerialise sys type value name env event = some json ∧
      eventOperatorDeserialise n json = .ok ⟨type, name, env, value, event.map sys.indexOf⟩ := by
  have hindex : event.mapM (eventToIndex sys) = some (event.map sys.indexOf) := by
    cases event with
    | none => rfl
    | some e => simp [(eventToIndex_of_queued (hevent e rfl)).1]
  refine ⟨_, by rw [eventOperatorSerialise, hindex]; rfl, ?_⟩
  generalize hjson : Json.record _ = json
  have hget := fun key => Json.get?_record key [
    ("type", some (.string (eventOperatorTypeEnumToStr type))),
    ("value", some (jsonBool value)),
    ("name", name.map .string),
    ("env", if env.isEmpty then none else some (stateSerialiseStrArray env)),
    ("event", (event.map sys.indexOf).map fun i : Nat => .int i)] (by simp)
  rw [hjson] at hget
  have htype : stateGetJsonEnumVar eventOperatorTypeStrToEnum json "type" = .ok type :=
    enumVar_ok (by rw [hget]; rfl) (eventOperatorType_restored type)
  have hvalue : stateGetJsonBoolVar json "value" = .ok value := boolVar_ok (by rw [hget]; rfl)
  have henv' : getOptionalEnv json = .ok env := by
    refine optionalEnv_ok ?_
    rw [hget]
    rfl
  have hevent' : getOptionalEvent n json "event" = .ok (event.map sys.indexOf) := by
    refine optionalEvent_ok ?_ fun i hi => ?_
    · rw [hget]
      rfl
    · obtain ⟨e, he, rfl⟩ := Option.map_eq_some_iff.mp hi
      exact hn ▸ (eventToIndex_of_queued (hevent e he)).2
  have hobject : json.isObject = true := hjson ▸ rfl
  have hname' : getOptionalName json = .ok name := by
    refine optionalName_ok ?_
    rw [hget]
    rfl
  have hleaf : (type == .eventMatch || name.isNone) = true := by
    cases name <;> simp_all
  have hplain : (type == .eventMatch || env.isEmpty) = true := by
    rcases henv with henv | henv <;> simp [henv]
  have hnamed : (type != .eventMatch || name.isSome) = true := by
    cases name <;> simp_all
  rw [eventOperatorDeserialise]
  simp only [hobject, hname', htype, henv', hleaf, hplain, hnamed, hvalue, hevent', check_true,
    bind, Except.bind]

/-- The loop takes the nodes of a condition as that condition, on top of the stack. -/
theorem foldlM_pushOperator {root : EventOperator}
    (hq : ∀ e ∈ root.refs, (sys.event? e).isSome = true) (hn : sys.events.length = n) :
    ∃ nodes, eventOperatorSerialiseNodes sys root = some nodes ∧ ∀ rest stack,
      (nodes ++ rest).foldlM (pushOperator n) stack =
        rest.foldlM (pushOperator n) (root.mapRefs sys.indexOf :: stack) := by
  have hinner : ∀ (type : EventOperatorType) (value : Bool) (l r : EventOperator)
      (make : Bool → EventOperator → EventOperator → EventOperator), type ≠ .eventMatch →
      (∀ n node left right stack json, eventOperatorDeserialise n json = .ok node →
        node.type = type → pushOperator n (right :: left :: stack) json =
          .ok (make node.value left right :: stack)) →
      (∃ nodes, eventOperatorSerialiseNodes sys l = some nodes ∧ ∀ rest stack,
        (nodes ++ rest).foldlM (pushOperator n) stack =
          rest.foldlM (pushOperator n) (l.mapRefs sys.indexOf :: stack)) →
      (∃ nodes, eventOperatorSerialiseNodes sys r = some nodes ∧ ∀ rest stack,
        (nodes ++ rest).foldlM (pushOperator n) stack =
          rest.foldlM (pushOperator n) (r.mapRefs sys.indexOf :: stack)) →
      ∃ nodes, (do
          let left ← eventOperatorSerialiseNodes sys l
          let right ← eventOperatorSerialiseNodes sys r
          let node ← eventOperatorSerialise sys type value none [] none
          some (left ++ right ++ [node])) = some nodes ∧ ∀ rest stack,
        (nodes ++ rest).foldlM (pushOperator n) stack = rest.foldlM (pushOperator n)
          (make value (l.mapRefs sys.indexOf) (r.mapRefs sys.indexOf) :: stack) := by
    rintro type value l r make htype hpush ⟨left, hleft, hl⟩ ⟨right, hright, hr⟩
    obtain ⟨node, hnode, hread⟩ := eventOperator_restored type value none [] none
      (by cases type <;> simp_all) (.inl rfl) (by simp) hn
    refine ⟨left ++ right ++ [node], by simp [hleft, hright, hnode], fun rest stack => ?_⟩
    rw [List.append_assoc, List.append_assoc, hl, hr, List.singleton_append, List.foldlM_cons,
      hpush n _ _ _ stack node hread rfl]
    rfl
  induction root with
  | eventMatch name env value event =>
    obtain ⟨node, hnode, hread⟩ := eventOperator_restored .eventMatch value (some name) env event rfl (.inr rfl)
      (fun e he => hq e (by simp [EventOperator.refs, he])) hn
    refine ⟨[node], by rw [eventOperatorSerialiseNodes, hnode]; rfl, fun rest stack => ?_⟩
    rw [List.singleton_append, List.foldlM_cons, pushOperator, hread]
    rfl
  | eventAnd value l r ihl ihr =>
    have hql : ∀ e ∈ l.refs, (sys.event? e).isSome = true :=
      fun e he => hq e (List.mem_append_left _ he)
    have hqr : ∀ e ∈ r.refs, (sys.event? e).isSome = true :=
      fun e he => hq e (List.mem_append_right _ he)
    refine hinner .eventAnd value l r .eventAnd (by simp) ?_ (ihl hql) (ihr hqr)
    intro n node left right stack json hread htype
    rw [pushOperator, hread]
    simp only [bind, Except.bind, htype]
  | eventOr value l r ihl ihr =>
    have hql : ∀ e ∈ l.refs, (sys.event? e).isSome = true :=
      fun e he => hq e (List.mem_append_left _ he)
    have hqr : ∀ e ∈ r.refs, (sys.event? e).isSome = true :=
      fun e he => hq e (List.mem_append_right _ he)
    refine hinner .eventOr value l r .eventOr (by simp) ?_ (ihl hql) (ihr hqr)
    intro n node left right stack json hread htype
    rw [pushOperator, hread]
    simp only [bind, Except.bind, htype]

/-- A condition is read back with its values, and with the positions of its
events. -/
theorem eventOperatorAll_restored {root : EventOperator}
    (hq : ∀ e ∈ root.refs, (sys.event? e).isSome = true) (hn : sys.events.length = n) :
    ∃ items, eventOperatorSerialiseAll sys root = some (.array items) ∧
      eventOperatorDeserialiseAll n items = .ok (root.mapRefs sys.indexOf) := by
  obtain ⟨nodes, hnodes, hfold⟩ := foldlM_pushOperator hq hn
  refine ⟨nodes, by rw [eventOperatorSerialiseAll, hnodes]; rfl, ?_⟩
  have hall := hfold [] []
  rw [List.append_nil, List.foldlM_nil] at hall
  rw [eventOperatorDeserialiseAll, hall]
  rfl

/-- An event without its address and what it blocks. -/
def Event.record (event : Event) : EventRecord :=
  ⟨event.name, event.env, event.fd, event.progress, event.failed, event.blockers⟩

/-- An event with a name is read back, without what it blocks. -/
theorem event_restored (event : Event) (blocking : List Json) :
    eventDeserialise (eventSerialise event blocking) =
      restoreAssert .eventNew (event.name != "") >>= fun _ => .ok event.record := by
  generalize hjson : eventSerialise event blocking = json
  have hget := fun key => Json.get?_record key [
    ("name", some (.string event.name)),
    ("env", if event.env.isEmpty then none else some (stateSerialiseStrArray event.env)),
    ("fd", some (.int event.fd)),
    ("progress", some (.string (eventProgressEnumToStr event.progress))),
    ("failed", some (jsonBool event.failed)),
    ("blockers", some (.int event.blockers)),
    ("blocking", if event.blocking.isEmpty then none else some (.array blocking))] (by simp)
  rw [← eventSerialise, hjson] at hget
  have hname : stateGetJsonStringVarStrict json "name" = .ok event.name :=
    stringVarStrict_ok (by rw [hget]; rfl)
  have henv : getOptionalEnv json = .ok event.env := by
    refine optionalEnv_ok ?_
    rw [hget]
    rfl
  have hfd : stateGetJsonIntVar json "fd" = .ok event.fd := intVar_ok (by rw [hget]; rfl)
  have hprogress : stateGetJsonEnumVar eventProgressStrToEnum json "progress" =
      .ok event.progress :=
    enumVar_ok (by rw [hget]; rfl) (eventProgress_restored event.progress)
  have hfailed : stateGetJsonBoolVar json "failed" = .ok event.failed :=
    boolVar_ok (by rw [hget]; rfl)
  have hcount : json.get? "blockers" = some (.int event.blockers) := by rw [hget]; rfl
  have hblockers : stateGetJsonIntVar json "blockers" = .ok event.blockers := intVar_ok hcount
  have hobject : json.isObject = true := hjson ▸ rfl
  rw [eventDeserialise]
  simp only [hobject, hname, henv, readOrFree, hfd, hprogress, hfailed, hcount, hblockers,
    check_true, bind, Except.bind, Int.toNat_natCast, Event.record]

end Restored

end Startup
