import Startup.State.Events

/-!
# Which arrays are conditions (`init/event_operator.c`)

`event_operator_deserialise_all` rebuilds a tree from its nodes in post-order with a stack.
Most of what it finds wrong with an array it asserts, and some it does not look at.

* `eventOperatorDeserialiseItems`: the function, with what it does when it gives up;
* `ImageOf`: the array is what `event_operator_serialise_all` makes of a tree;
* `RefusedNode`, `Fed`: which nodes are refused, and which operators find their children;
* `eventOperatorDeserialiseItems_iff`: for which arrays the function accepts the images and
  nothing else, without an assertion that fails.
-/

namespace Startup

open Lib

/-! ## The function -/

/-- The `switch` of `event_operator_deserialise_all`: an operator takes its children from the
stack, the right one first. -/
def takeChildren (stack : List EventOperator) (node : OperatorNode) :
    Restored (List EventOperator) :=
  match node.type, stack with
  | .eventMatch, _ =>
    .ok (.eventMatch (node.name.getD "") node.env node.value node.event :: stack)
  | .eventAnd, right :: left :: stack => .ok (.eventAnd node.value left right :: stack)
  | .eventOr, right :: left :: stack => .ok (.eventOr node.value left right :: stack)
  | _, _ => .error (.fault (.assertFailed .eventOperatorDeserialiseAll))

/-- The `error` label of `event_operator_deserialise_all`: the operator of the pass before is
freed, and `event_operator_destroy` unblocks its event. -/
def giveUp {α : Type} (blockers : EventId → Nat) : Option EventId → Restored α
  | none => notRestored
  | some e => do
    restoreAssert .eventUnblock (decide (0 < blockers e))
    notRestored

/-- One pass of the loop in `event_operator_deserialise_all`.  `oper` is the event of the
operator of the pass before. -/
def deserialisePass (n : Nat) (blockers : EventId → Nat)
    (s : List EventOperator × Option EventId) (json : Json) :
    Restored (List EventOperator × Option EventId) :=
  let (stack, oper) := s
  if !json.isObject then giveUp blockers oper
  else do
    let node ← eventOperatorDeserialise n json
    let stack ← takeChildren stack node
    .ok (stack, node.event)

/-- `event_operator_deserialise_all` for a queue of `n` events, whose blocker counts are
`blockers`. -/
def eventOperatorDeserialiseItems (n : Nat) (blockers : EventId → Nat) (items : List Json) :
    Restored EventOperator := do
  match ← items.foldlM (deserialisePass n blockers) ([], none) with
  | ([root], _) => .ok root
  | _ => .error (.fault (.assertFailed .eventOperatorDeserialiseAll))

/-! ## Images -/

/-- Two objects with the same fields, in whatever order. -/
structure SameObject (a b : Json) : Prop where
  left : a.isObject = true
  right : b.isObject = true
  get? (key : String) : a.get? key = b.get? key

/-- The array is what `event_operator_serialise_all` makes of the tree. -/
def ImageOf (sys : Sys) (root : EventOperator) (items : List Json) : Prop :=
  (∀ e ∈ root.refs, (sys.event? e).isSome = true) ∧
    ∃ nodes, eventOperatorSerialiseNodes sys root = some nodes ∧
      List.Forall₂ SameObject nodes items

/-! ## Nodes -/

/-- The name, the arguments and the type of a node are not there, or are of their types. -/
structure TypedNode (json : Json) : Prop where
  object : json.isObject = true
  name : json.get? "name" = none ∨ ∃ name, json.get? "name" = some (.string name)
  type : ∃ type, json.get? "type" = some (.string (eventOperatorTypeEnumToStr type))
  env : json.get? "env" = none ∨ ∃ env, json.get? "env" = some (stateSerialiseStrArray env)

/-- The node is one for an event. -/
def isMatch (json : Json) : Prop := json.get? "type" = some (.string "EVENT_MATCH")

/-- A leaf has a name; an operator has neither a name nor arguments. -/
def PlacedNode (json : Json) : Prop :=
  (isMatch json → json.get? "name" ≠ none) ∧
    (¬ isMatch json → json.get? "name" = none ∧
      (json.get? "env" = none ∨ json.get? "env" = some (.array [])))

/-- The value of a node is a number. -/
def ValuedNode (json : Json) : Prop := ∃ v, json.get? "value" = some (.int v)

/-- The event of a node is the position of one, if there is one. -/
def LinkedNode (n : Nat) (json : Json) : Prop :=
  json.get? "event" = none ∨ ∃ i : Nat, i < n ∧ json.get? "event" = some (.int i)

/-- The event of a node is a negative number. -/
def NegativeLink (json : Json) : Prop := ∃ i : Int, i < 0 ∧ json.get? "event" = some (.int i)

/-- A node that is accepted. -/
structure AcceptedNode (n : Nat) (json : Json) : Prop where
  typed : TypedNode json
  placed : PlacedNode json
  valued : ValuedNode json
  linked : LinkedNode n json

/-- A node that is refused: what is wrong with it is found before something that is
asserted. -/
def RefusedNode (n : Nat) (json : Json) : Prop :=
  ¬ TypedNode json ∨
    PlacedNode json ∧ (¬ ValuedNode json ∨ ¬ LinkedNode n json ∧ ¬ NegativeLink json)

/-- Each operator finds two nodes on the stack, which has `depth` nodes at first. -/
def Fed : Nat → List Json → Prop
  | _, [] => True
  | depth, json :: rest =>
    (isMatch json ∧ Fed (depth + 1) rest) ∨ (¬ isMatch json ∧ 2 ≤ depth ∧ Fed (depth - 1) rest)

/-- The first node that is not accepted is refused, before an operator has not found its
children.  If it is no object, the event of the node before it can be unblocked. -/
def RefusedInTime (n : Nat) (blockers : EventId → Nat) (items : List Json) : Prop :=
  ∃ before json after, items = before ++ json :: after ∧ (∀ j ∈ before, AcceptedNode n j) ∧
    Fed 0 before ∧ RefusedNode n json ∧
    (json.isObject = false → ∀ last ∈ before.getLast?, ∀ e : Nat,
      last.get? "event" = some (.int e) → 0 < blockers e)

/-- The images are accepted as the trees that they are made of, and everything else is
refused. -/
def AcceptsImages (sys : Sys) (blockers : EventId → Nat) (items : List Json) : Prop :=
  (∀ root, ImageOf sys root items →
    eventOperatorDeserialiseItems sys.events.length blockers items =
      .ok (root.mapRefs sys.indexOf)) ∧
  ((¬ ∃ root, ImageOf sys root items) →
    eventOperatorDeserialiseItems sys.events.length blockers items = notRestored)

/-! ## What is read of a node -/

section Fields

variable {n : Nat} {json : Json}

theorem isMatch_iff {type : EventOperatorType}
    (h : json.get? "type" = some (.string (eventOperatorTypeEnumToStr type))) :
    isMatch json ↔ type = .eventMatch := by
  rw [isMatch, h]
  cases type <;> simp [eventOperatorTypeEnumToStr]

theorem getOptionalName_cases (json : Json) :
    (∃ name, json.get? "name" = name.map .string ∧ getOptionalName json = .ok name) ∨
      (¬ (json.get? "name" = none ∨ ∃ name, json.get? "name" = some (.string name)) ∧
        getOptionalName json = notRestored) := by
  cases h : json.get? "name" with
  | none => exact .inl ⟨none, rfl, by simp [getOptionalName, h]⟩
  | some value =>
    cases value with
    | string name =>
      left
      exact ⟨some name, rfl, optionalName_ok h⟩
    | _ =>
      right
      refine ⟨by simp, ?_⟩
      simp [getOptionalName, stateGetJsonStringVarStrict, stateGetJsonStringVar, h, notRestored,
        bind, Except.bind]

theorem enumType_cases (json : Json) :
    (∃ type, json.get? "type" = some (.string (eventOperatorTypeEnumToStr type)) ∧
      stateGetJsonEnumVar eventOperatorTypeStrToEnum json "type" = .ok type) ∨
    ((¬ ∃ type, json.get? "type" = some (.string (eventOperatorTypeEnumToStr type))) ∧
      stateGetJsonEnumVar eventOperatorTypeStrToEnum json "type" = notRestored) := by
  by_cases htype : ∃ type, json.get? "type" = some (.string (eventOperatorTypeEnumToStr type))
  · obtain ⟨type, h⟩ := htype
    exact .inl ⟨type, h, enumVar_ok h (eventOperatorType_restored type)⟩
  · right
    refine ⟨htype, ?_⟩
    have hother : ∀ s, json.get? "type" = some (.string s) → eventOperatorTypeStrToEnum s = none := by
      intro s hs
      have hne : ∀ type, s ≠ eventOperatorTypeEnumToStr type := by
        intro type heq
        exact htype ⟨type, by rw [hs, heq]⟩
      have hor : s ≠ "EVENT_OR" := hne .eventOr
      have hand : s ≠ "EVENT_AND" := hne .eventAnd
      have hmatch : s ≠ "EVENT_MATCH" := hne .eventMatch
      simp [eventOperatorTypeStrToEnum, hor, hand, hmatch]
    cases h : json.get? "type" with
    | none =>
      simp [stateGetJsonEnumVar, stateGetJsonStringVarStrict, stateGetJsonStringVar, h, notRestored,
        bind, Except.bind]
    | some value =>
      cases value with
      | string s =>
        simp [stateGetJsonEnumVar, stateGetJsonStringVarStrict, stateGetJsonStringVar, h,
          notRestored, hother s h, bind, Except.bind]
      | _ =>
        simp [stateGetJsonEnumVar, stateGetJsonStringVarStrict, stateGetJsonStringVar, h,
          notRestored, bind, Except.bind]

/-- The elements of an array are strings, or it is refused. -/
theorem strArray_cases (items : List Json) :
    (∃ env : List String, items = env.map .string) ∨
      ((¬ ∃ env : List String, items = env.map .string) ∧ stateDeserialiseStrArray items = notRestored) := by
  induction items with
  | nil => exact .inl ⟨[], rfl⟩
  | cons item items ih =>
    rw [stateDeserialiseStrArray, List.mapM_cons]
    rcases ih with ⟨env, rfl⟩ | ⟨hnot, hrefused⟩
    · cases item with
      | string s => exact .inl ⟨s :: env, rfl⟩
      | _ =>
        right
        refine ⟨?_, rfl⟩
        intro h
        obtain ⟨env', h⟩ := h
        cases env' with
        | nil => simp at h
        | cons s env' => simp at h
    · right
      refine ⟨?_, ?_⟩
      · intro h
        obtain ⟨env', h⟩ := h
        cases env' with
        | nil => simp at h
        | cons s env' =>
          rw [List.map_cons, List.cons.injEq] at h
          exact hnot ⟨env', h.2⟩
      · rw [stateDeserialiseStrArray] at hrefused
        rw [hrefused]
        cases item <;> rfl

theorem getOptionalEnv_cases (json : Json) :
    (∃ env, (json.get? "env" = none ∧ env = [] ∨
        json.get? "env" = some (stateSerialiseStrArray env)) ∧ getOptionalEnv json = .ok env) ∨
      (¬ (json.get? "env" = none ∨ ∃ env, json.get? "env" = some (stateSerialiseStrArray env)) ∧
        getOptionalEnv json = notRestored) := by
  cases h : json.get? "env" with
  | none => exact .inl ⟨[], .inl ⟨rfl, rfl⟩, by simp [getOptionalEnv, h]⟩
  | some value =>
    cases value with
    | array items =>
      have hread : getOptionalEnv json = stateDeserialiseStrArray items := by
        rw [getOptionalEnv]
        simp only [h]
        rw [getArray_ok h]
        rfl
      rcases strArray_cases items with ⟨env, rfl⟩ | ⟨hnot, hrefused⟩
      · exact .inl ⟨env, .inr rfl, hread.trans (strArray_ok env)⟩
      · right
        refine ⟨?_, hread.trans hrefused⟩
        intro hor
        rcases hor with hor | ⟨env, hor⟩
        · simp at hor
        · rw [stateSerialiseStrArray, Option.some.injEq, Json.array.injEq] at hor
          exact hnot ⟨env, hor⟩
    | _ =>
      right
      refine ⟨by simp [stateSerialiseStrArray], ?_⟩
      simp [getOptionalEnv, getArray, getEx, getItems, Json.items?, h, notRestored, bind,
        Except.bind]

theorem boolValue_cases (json : Json) :
    (∃ v, json.get? "value" = some (.int v) ∧
      stateGetJsonBoolVar json "value" = .ok (decide (v ≠ 0))) ∨
    (¬ ValuedNode json ∧ stateGetJsonBoolVar json "value" = notRestored) := by
  unfold ValuedNode
  cases h : json.get? "value" with
  | none =>
    right
    refine ⟨by simp, ?_⟩
    simp [stateGetJsonBoolVar, stateGetJsonIntVar, h, notRestored, bind, Except.bind]
  | some value =>
    cases value with
    | int v =>
      left
      refine ⟨v, rfl, ?_⟩
      rw [stateGetJsonBoolVar, intVar_ok h]
      rfl
    | _ =>
      right
      refine ⟨by simp, ?_⟩
      simp [stateGetJsonBoolVar, stateGetJsonIntVar, h, notRestored, bind, Except.bind]

theorem getOptionalEvent_cases (n : Nat) (json : Json) :
    (LinkedNode n json ∧ ∃ event : Option EventId, json.get? "event" = event.map (fun i : Nat => .int i) ∧
      getOptionalEvent n json "event" = .ok event) ∨
    (¬ LinkedNode n json ∧ ¬ NegativeLink json ∧
      getOptionalEvent n json "event" = notRestored) ∨
    (¬ LinkedNode n json ∧ NegativeLink json ∧ ∃ f,
      getOptionalEvent n json "event" = .error (.fault f)) := by
  unfold LinkedNode NegativeLink
  cases h : json.get? "event" with
  | none => exact .inl ⟨.inl rfl, none, rfl, by simp [getOptionalEvent, h]⟩
  | some value =>
    cases value with
    | int i =>
      have hread : getOptionalEvent n json "event" =
          (eventFromIndex n i >>= fun e => .ok (some e)) := by
        rw [getOptionalEvent]
        simp only [h]
        rw [intVar_ok h]
        rfl
      rcases lt_or_ge i 0 with hneg | hpos
      · right; right
        refine ⟨?_, ⟨i, hneg, rfl⟩, .assertFailed .eventFromIndex, ?_⟩
        · intro hor
          rcases hor with hor | ⟨j, -, hj⟩
          · simp at hor
          · simp only [Option.some.injEq, Json.int.injEq] at hj
            omega
        · rw [hread, eventFromIndex]
          simp [restoreAssert, check, show ¬ 0 ≤ i by omega, bind, Except.bind]
      · obtain ⟨k, rfl⟩ := Int.eq_ofNat_of_zero_le hpos
        by_cases hlt : k < n
        · left
          refine ⟨.inr ⟨k, hlt, rfl⟩, some k, rfl, ?_⟩
          rw [hread, eventFromIndex_ok hlt]
          rfl
        · right; left
          refine ⟨?_, ?_, ?_⟩
          · intro hor
            rcases hor with hor | ⟨j, hj, heq⟩
            · simp at hor
            · simp only [Option.some.injEq, Json.int.injEq] at heq
              omega
          · intro hneg
            obtain ⟨j, hj, heq⟩ := hneg
            simp only [Option.some.injEq, Json.int.injEq] at heq
            omega
          · rw [hread, eventFromIndex]
            simp [restoreAssert, restoreIf, check, hlt, notRestored, bind, Except.bind]
    | _ =>
      right; left
      refine ⟨by simp, by simp, ?_⟩
      simp [getOptionalEvent, stateGetJsonIntVar, h, notRestored, bind, Except.bind]

/-- What `event_operator_deserialise` makes of a node. -/
inductive NodeCase (n : Nat) (json : Json) : Prop where
  | accepted (node : OperatorNode) (h : AcceptedNode n json)
      (htype : isMatch json ↔ node.type = .eventMatch)
      (hevent : json.get? "event" = node.event.map fun i : Nat => .int i)
      (hread : eventOperatorDeserialise n json = .ok node)
  | refused (h : RefusedNode n json) (hread : eventOperatorDeserialise n json = notRestored)
  | fault (f : Fault) (haccepted : ¬ AcceptedNode n json) (hrefused : ¬ RefusedNode n json)
      (hread : eventOperatorDeserialise n json = .error (.fault f))

theorem AcceptedNode.not_refused (h : AcceptedNode n json) : ¬ RefusedNode n json := by
  intro hr
  rcases hr with hr | ⟨-, hr | hr⟩
  · exact hr h.typed
  · exact hr h.valued
  · exact hr.1 h.linked

/-- The assertions of `event_operator_new` hold of a node in its place. -/
theorem placed_iff {type : EventOperatorType} {name : Option String} {env : List String}
    (htype : json.get? "type" = some (.string (eventOperatorTypeEnumToStr type)))
    (hname : json.get? "name" = name.map .string)
    (henv : json.get? "env" = none ∧ env = [] ∨
      json.get? "env" = some (stateSerialiseStrArray env)) :
    PlacedNode json ↔ (type == .eventMatch || name.isNone) = true ∧
      (type == .eventMatch || env.isEmpty) = true ∧ (type != .eventMatch || name.isSome) = true := by
  have hempty : (json.get? "env" = none ∨ json.get? "env" = some (.array [])) ↔
      env.isEmpty = true := by
    rcases henv with ⟨hnone, rfl⟩ | hsome
    · simp [hnone]
    · rw [hsome, stateSerialiseStrArray]
      cases env <;> simp
  unfold PlacedNode
  rw [hempty, isMatch_iff htype, hname]
  cases type <;> cases name <;> simp

theorem eventOperatorDeserialise_cases (n : Nat) (json : Json) : NodeCase n json := by
  cases hobject : json.isObject with
  | false =>
    refine .refused (.inl fun h => ?_) ?_
    · rw [h.object] at hobject
      cases hobject
    · rw [eventOperatorDeserialise, hobject]
      rfl
  | true =>
    rcases getOptionalName_cases json with ⟨name, hname, hn⟩ | ⟨hname, hn⟩
    case inr =>
      refine .refused (.inl fun h => hname h.name) ?_
      rw [eventOperatorDeserialise, hobject, hn]
      rfl
    rcases enumType_cases json with ⟨type, htype, ht⟩ | ⟨htype, ht⟩
    case inr =>
      refine .refused (.inl fun h => htype h.type) ?_
      rw [eventOperatorDeserialise, hobject, hn, ht]
      rfl
    rcases getOptionalEnv_cases json with ⟨env, henv, he⟩ | ⟨henv, he⟩
    case inr =>
      refine .refused (.inl fun h => henv h.env) ?_
      rw [eventOperatorDeserialise, hobject, hn, ht, he]
      rfl
    have htyped : TypedNode json := by
      refine ⟨hobject, ?_, ⟨type, htype⟩, ?_⟩
      · rw [hname]
        cases name <;> simp
      · rcases henv with henv | henv
        · exact .inl henv.1
        · exact .inr ⟨env, henv⟩
    have hplaced := placed_iff htype hname henv
    have hread : eventOperatorDeserialise n json = (do
        restoreAssert .eventOperatorNew (type == .eventMatch || name.isNone)
        restoreAssert .eventOperatorNew (type == .eventMatch || env.isEmpty)
        restoreAssert .eventOperatorNew (type != .eventMatch || name.isSome)
        let value ← stateGetJsonBoolVar json "value"
        let event ← getOptionalEvent n json "event"
        .ok ⟨type, name, env, value, event⟩) := by
      rw [eventOperatorDeserialise, hobject, hn, ht, he]
      rfl
    by_cases hp : PlacedNode json
    case neg =>
      refine .fault (.assertFailed .eventOperatorNew) (fun h => hp h.placed) ?_ ?_
      · intro h
        rcases h with h | h
        · exact h htyped
        · exact hp h.1
      · rw [hread]
        rw [hplaced] at hp
        cases type <;> cases name <;> cases env <;> simp_all [restoreAssert, check, bind, Except.bind]
    obtain ⟨hleaf, hplain, hnamed⟩ := hplaced.mp hp
    simp only [hleaf, hplain, hnamed, check_true, bind, Except.bind] at hread
    rcases boolValue_cases json with ⟨v, hvalue, hv⟩ | ⟨hvalue, hv⟩
    case inr =>
      refine .refused (.inr ⟨hp, .inl hvalue⟩) ?_
      rw [hread, hv]
      rfl
    rcases getOptionalEvent_cases n json with ⟨hl, event, hevent, hl'⟩ | ⟨hl, hneg, hl'⟩ |
      ⟨hl, hneg, f, hl'⟩
    · refine .accepted ⟨type, name, env, decide (v ≠ 0), event⟩ ⟨htyped, hp, ⟨v, hvalue⟩, hl⟩
        (isMatch_iff htype) hevent ?_
      rw [hread, hv, hl']
    · refine .refused (.inr ⟨hp, .inr ⟨hl, hneg⟩⟩) ?_
      rw [hread, hv, hl']
      rfl
    · refine .fault f (fun h => hl h.linked) ?_ ?_
      · intro h
        rcases h with h | ⟨-, h | h⟩
        · exact h htyped
        · exact h ⟨v, hvalue⟩
        · exact h.2 hneg
      · rw [hread, hv, hl']

end Fields

/-! ## The loop -/

section Loop

variable {sys : Sys} {n : Nat} {blockers : EventId → Nat} {json : Json} {items : List Json}
  {stack : List EventOperator} {oper : Option EventId}

/-- An accepted node goes on the stack, where an operator replaces its children. -/
theorem deserialisePass_accepted (blockers : EventId → Nat) (stack : List EventOperator)
    (oper : Option EventId) {node : OperatorNode}
    (h : AcceptedNode n json)
    (htype : isMatch json ↔ node.type = .eventMatch)
    (hread : eventOperatorDeserialise n json = .ok node) :
    (isMatch json ∧ ∃ stack', stack'.length = stack.length + 1 ∧
      deserialisePass n blockers (stack, oper) json = .ok (stack', node.event)) ∨
    (¬ isMatch json ∧ 2 ≤ stack.length ∧ ∃ stack', stack'.length = stack.length - 1 ∧
      deserialisePass n blockers (stack, oper) json = .ok (stack', node.event)) ∨
    (¬ isMatch json ∧ stack.length < 2 ∧ ∃ f,
      deserialisePass n blockers (stack, oper) json = .error (.fault f)) := by
  have hpass : deserialisePass n blockers (stack, oper) json =
      (takeChildren stack node >>= fun stack => .ok (stack, node.event)) := by
    simp only [deserialisePass, h.typed.object, Bool.not_true, Bool.false_eq_true, if_false, hread]
    rfl
  rw [hpass, htype]
  obtain ⟨type, name, env, value, event⟩ := node
  cases type with
  | eventMatch => exact .inl ⟨rfl, _, rfl, rfl⟩
  | eventAnd =>
    right
    match stack with
    | [] => exact .inr ⟨by simp, by simp, _, rfl⟩
    | [_] => exact .inr ⟨by simp, by simp, _, rfl⟩
    | right :: left :: stack => exact .inl ⟨by simp, by simp, _, by simp, rfl⟩
  | eventOr =>
    right
    match stack with
    | [] => exact .inr ⟨by simp, by simp, _, rfl⟩
    | [_] => exact .inr ⟨by simp, by simp, _, rfl⟩
    | right :: left :: stack => exact .inl ⟨by simp, by simp, _, by simp, rfl⟩

/-- A refused node ends the loop, unless the event of the node before it cannot be unblocked. -/
theorem deserialisePass_refused (blockers : EventId → Nat) (stack : List EventOperator)
    (oper : Option EventId)
    (hread : eventOperatorDeserialise n json = notRestored) :
    deserialisePass n blockers (stack, oper) json = notRestored ↔
      (json.isObject = false → ∀ e ∈ oper, 0 < blockers e) := by
  simp only [deserialisePass]
  cases hobject : json.isObject with
  | true => simp [hread, notRestored, bind, Except.bind]
  | false =>
    cases oper with
    | none => simp [giveUp]
    | some e =>
      by_cases hpos : 0 < blockers e
      · simp [giveUp, restoreAssert, check, hpos, bind, Except.bind]
      · simp [giveUp, restoreAssert, check, hpos, notRestored, bind, Except.bind]

/-- The event of the operator of the pass before can be unblocked. -/
def CanGiveUp (blockers : EventId → Nat) (oper : Option EventId) (before : List Json) : Prop :=
  (before = [] → ∀ e ∈ oper, 0 < blockers e) ∧
    ∀ last ∈ before.getLast?, ∀ e : Nat, last.get? "event" = some (.int e) → 0 < blockers e

theorem canGiveUp_cons {event : Option EventId} {before : List Json}
    (hevent : json.get? "event" = event.map fun i : Nat => .int i) :
    CanGiveUp blockers oper (json :: before) ↔ CanGiveUp blockers event before := by
  have hhead : (∀ e : Nat, json.get? "event" = some (.int e) → 0 < blockers e) ↔
      ∀ e ∈ event, 0 < blockers e := by
    rw [hevent]
    cases event with
    | none => simp
    | some i =>
      constructor
      · intro h e he
        cases he
        exact h i rfl
      · intro h e he
        have heq : i = e := by
          rw [Option.map_some, Option.some.injEq, Json.int.injEq] at he
          exact Int.ofNat_inj.mp he
        exact heq ▸ h i rfl
  cases before with
  | nil => simp [CanGiveUp, hhead]
  | cons next before => simp [CanGiveUp]

/-- What is not an object ends the loop. -/
theorem deserialisePass_notObject (blockers : EventId → Nat) (stack : List EventOperator)
    (oper : Option EventId) (hobject : json.isObject = false) :
    ∃ r, deserialisePass n blockers (stack, oper) json = .error r := by
  simp only [deserialisePass, hobject, Bool.not_false, if_true]
  cases oper with
  | none => exact ⟨_, rfl⟩
  | some e =>
    simp only [giveUp, restoreAssert, check]
    split
    · exact ⟨_, rfl⟩
    · exact ⟨_, rfl⟩

/-- A split of an array is at its first item or behind it. -/
theorem exists_split_cons {α : Type} {P : List α → α → Prop} {item : α} {items : List α} :
    (∃ before a after, item :: items = before ++ a :: after ∧ P before a) ↔
      P [] item ∨ ∃ before a after, items = before ++ a :: after ∧ P (item :: before) a := by
  constructor
  · intro hsplit
    obtain ⟨before, a, after, heq, h⟩ := hsplit
    cases before with
    | nil =>
      cases heq
      exact .inl h
    | cons first before =>
      cases heq
      exact .inr ⟨before, a, after, rfl, h⟩
  · intro hor
    rcases hor with h | ⟨before, a, after, rfl, h⟩
    · exact ⟨[], item, items, rfl, h⟩
    · exact ⟨item :: before, a, after, rfl, h⟩

/-- Where the loop refuses the array: at its first node that is not accepted. -/
theorem foldlM_deserialisePass_refused (n : Nat) (blockers : EventId → Nat) (items : List Json) :
    ∀ stack oper, items.foldlM (deserialisePass n blockers) (stack, oper) = notRestored ↔
      ∃ before json after, items = before ++ json :: after ∧ (∀ j ∈ before, AcceptedNode n j) ∧
        Fed stack.length before ∧ RefusedNode n json ∧
        (json.isObject = false → CanGiveUp blockers oper before) := by
  induction items with
  | nil =>
    intro stack oper
    constructor
    · intro h
      cases h
    · intro h
      obtain ⟨before, json, after, heq, -⟩ := h
      simp at heq
  | cons item items ih =>
    intro stack oper
    rw [List.foldlM_cons, exists_split_cons]
    cases eventOperatorDeserialise_cases n item with
    | refused h hread =>
      have hnone : ∀ before, ¬ ∀ j ∈ item :: before, AcceptedNode n j := fun before hall =>
        absurd h (hall item List.mem_cons_self).not_refused
      have hpass := deserialisePass_refused blockers stack oper hread
      simp only [hnone, false_and, and_false, exists_false, or_false]
      constructor
      · intro hrun
        refine ⟨by simp, trivial, h, fun hobject => ?_⟩
        obtain ⟨r, hstop⟩ := deserialisePass_notObject blockers stack oper hobject
        rw [hstop] at hrun hpass
        simpa [CanGiveUp] using hpass.mp hrun hobject
      · intro hhere
        obtain ⟨-, -, -, hgive⟩ := hhere
        rw [hpass.mpr fun hobject => (hgive hobject).1 rfl]
        rfl
    | fault f haccepted hrefused hread =>
      have hnone : ∀ before, ¬ ∀ j ∈ item :: before, AcceptedNode n j := fun before hall =>
        haccepted (hall item List.mem_cons_self)
      simp only [hnone, hrefused, false_and, and_false, exists_false, or_false, iff_false]
      intro hrun
      have hobject : item.isObject = true := by
        by_contra hobject
        exact hrefused (.inl fun h => hobject h.object)
      simp only [deserialisePass, hobject, hread, Bool.not_true, Bool.false_eq_true, if_false,
        notRestored, bind, Except.bind, Except.error.injEq] at hrun
      cases hrun
    | accepted node h htype hevent hread =>
      rw [or_iff_right fun hhere => h.not_refused hhere.2.2.1]
      -- the split of the array moves on by the accepted node
      have hmove : ∀ depth, (∀ before, Fed stack.length (item :: before) ↔ Fed depth before) →
          ((∃ before json after, items = before ++ json :: after ∧
              (∀ j ∈ before, AcceptedNode n j) ∧ Fed depth before ∧ RefusedNode n json ∧
              (json.isObject = false → CanGiveUp blockers node.event before)) ↔
            ∃ before json after, items = before ++ json :: after ∧
              (∀ j ∈ item :: before, AcceptedNode n j) ∧ Fed stack.length (item :: before) ∧
              RefusedNode n json ∧
              (json.isObject = false → CanGiveUp blockers oper (item :: before))) := by
        intro depth hfed
        simp only [hfed, canGiveUp_cons hevent, List.forall_mem_cons, h, true_and]
      rcases deserialisePass_accepted blockers stack oper h htype hread with
        ⟨hm, stack', hlen, hp⟩ | ⟨hm, htwo, stack', hlen, hp⟩ | ⟨hm, hless, f, hp⟩
      · rw [hp]
        refine (ih stack' node.event).trans (hmove stack'.length ?_)
        intro before
        rw [hlen]
        simp [Fed, hm]
      · rw [hp]
        refine (ih stack' node.event).trans (hmove stack'.length ?_)
        intro before
        rw [hlen]
        simp [Fed, hm, htwo]
      · rw [hp]
        refine iff_of_false nofun ?_
        intro hsplit
        obtain ⟨before, json, after, -, -, hf, -⟩ := hsplit
        rcases hf with hf | hf
        · exact absurd hf.1 hm
        · omega

/-- Which arrays are refused. -/
theorem eventOperatorDeserialiseItems_refused (n : Nat) (blockers : EventId → Nat)
    (items : List Json) :
    eventOperatorDeserialiseItems n blockers items = notRestored ↔
      RefusedInTime n blockers items := by
  have hloop := foldlM_deserialisePass_refused n blockers items [] none
  have hend : eventOperatorDeserialiseItems n blockers items = notRestored ↔
      items.foldlM (deserialisePass n blockers) ([], none) = notRestored := by
    rw [eventOperatorDeserialiseItems]
    cases items.foldlM (deserialisePass n blockers) ([], none) with
    | error r => simp [notRestored, bind, Except.bind]
    | ok s =>
      obtain ⟨stack, oper⟩ := s
      match stack with
      | [] => simp [notRestored, bind, Except.bind]
      | [root] => simp [notRestored, bind, Except.bind]
      | _ :: _ :: _ => simp [notRestored, bind, Except.bind]
  rw [hend, hloop]
  simp [RefusedInTime, CanGiveUp]

/-- Where every event can be unblocked, giving up is refusing. -/
theorem deserialisePass_fst (oper : Option EventId) (hpos : ∀ e, 0 < blockers e) :
    (deserialisePass n blockers (stack, oper) json).map Prod.fst = pushOperator n stack json := by
  rw [pushOperator]
  simp only [deserialisePass]
  cases hobject : json.isObject with
  | false =>
    have hread : eventOperatorDeserialise n json = notRestored := by
      rw [eventOperatorDeserialise, hobject]
      rfl
    rw [hread]
    cases oper with
    | none => rfl
    | some e => simp [giveUp, restoreAssert, check, hpos, notRestored, bind, Except.bind, Except.map]
  | true =>
    cases eventOperatorDeserialise n json with
    | error r => rfl
    | ok node =>
      show Except.map Prod.fst (takeChildren stack node >>= fun stack => .ok (stack, node.event)) =
        takeChildren stack node
      cases takeChildren stack node <;> rfl

/-- The function is that of `Startup.State.Events`, where every event can be unblocked. -/
theorem eventOperatorDeserialiseItems_eq (hpos : ∀ e, 0 < blockers e) :
    eventOperatorDeserialiseItems n blockers items = eventOperatorDeserialiseAll n items := by
  have hloop : ∀ (items : List Json) stack oper,
      (items.foldlM (deserialisePass n blockers) (stack, oper)).map Prod.fst =
        items.foldlM (pushOperator n) stack := by
    intro items
    induction items with
    | nil => exact fun _ _ => rfl
    | cons item items ih =>
      intro stack oper
      rw [List.foldlM_cons, List.foldlM_cons, ← deserialisePass_fst oper hpos]
      cases deserialisePass n blockers (stack, oper) item with
      | error r => rfl
      | ok s => exact ih s.1 s.2
  rw [eventOperatorDeserialiseItems, eventOperatorDeserialiseAll, ← hloop items [] none]
  cases items.foldlM (deserialisePass n blockers) ([], none) with
  | error r => rfl
  | ok s =>
    obtain ⟨stack, oper⟩ := s
    cases stack with
    | nil => rfl
    | cons root stack =>
      cases stack with
      | nil => rfl
      | cons second stack => rfl

/-! ## Images -/

/-- Only the fields of a node are read. -/
theorem SameObject.deserialise {a b : Json} (h : SameObject a b) :
    eventOperatorDeserialise n a = eventOperatorDeserialise n b := by
  simp only [eventOperatorDeserialise, getOptionalName, stateGetJsonEnumVar,
    stateGetJsonStringVarStrict, stateGetJsonStringVar, getOptionalEnv, getArray, getEx,
    stateGetJsonBoolVar, stateGetJsonIntVar, getOptionalEvent, h.left, h.right, h.get?]

/-- The loop does with the nodes of an image what `pushOperator` does with what has been
written. -/
theorem foldlM_deserialisePass_of_same (blockers : EventId → Nat) {nodes : List Json}
    (h : List.Forall₂ SameObject nodes items) :
    ∀ stack stack' oper, nodes.foldlM (pushOperator n) stack = .ok stack' →
      ∃ oper', items.foldlM (deserialisePass n blockers) (stack, oper) = .ok (stack', oper') := by
  induction h with
  | nil =>
    intro stack stack' oper hrun
    cases hrun
    exact ⟨oper, rfl⟩
  | @cons a b nodes items hab _ ih =>
    intro stack stack' oper hrun
    rw [List.foldlM_cons] at hrun ⊢
    obtain ⟨mid, hmid, hrest⟩ := bind_eq_ok.mp hrun
    rw [pushOperator] at hmid
    obtain ⟨node, hnode, hpush⟩ := bind_eq_ok.mp hmid
    have hpass : deserialisePass n blockers (stack, oper) b = .ok (mid, node.event) := by
      have htake : takeChildren stack node = .ok mid := hpush
      simp only [deserialisePass, hab.right, Bool.not_true, Bool.false_eq_true, if_false,
        ← hab.deserialise, hnode, htake, bind, Except.bind]
    obtain ⟨oper', hitems⟩ := ih mid stack' node.event hrest
    exact ⟨oper', by rw [hpass]; exact hitems⟩

/-- An image is read back as the tree that it is made of. -/
theorem ImageOf.restored {root : EventOperator} (blockers : EventId → Nat)
    (h : ImageOf sys root items) :
    eventOperatorDeserialiseItems sys.events.length blockers items =
      .ok (root.mapRefs sys.indexOf) := by
  obtain ⟨hqueued, nodes, hnodes, hsame⟩ := h
  obtain ⟨nodes', hnodes', hfold⟩ := foldlM_pushOperator hqueued rfl
  rw [hnodes, Option.some.injEq] at hnodes'
  subst hnodes'
  have hrun := hfold [] []
  rw [List.append_nil] at hrun
  obtain ⟨oper, hitems⟩ := foldlM_deserialisePass_of_same blockers hsame [] _ none hrun
  rw [eventOperatorDeserialiseItems, hitems]
  rfl

theorem isObject_of_serialise {type : EventOperatorType} {value : Bool} {name : Option String}
    {env : List String} {event : Option EventId}
    (h : eventOperatorSerialise sys type value name env event = some json) :
    json.isObject = true := by
  obtain ⟨index, -, hnode⟩ := Option.bind_eq_some_iff.mp h
  cases hnode
  rfl

/-- What is written of a tree are objects. -/
theorem isObject_of_serialiseNodes {root : EventOperator} :
    ∀ {nodes}, eventOperatorSerialiseNodes sys root = some nodes →
      ∀ node ∈ nodes, node.isObject = true := by
  have hinner : ∀ (type : EventOperatorType) (value : Bool) (l r : EventOperator),
      (∀ {nodes}, eventOperatorSerialiseNodes sys l = some nodes →
        ∀ node ∈ nodes, node.isObject = true) →
      (∀ {nodes}, eventOperatorSerialiseNodes sys r = some nodes →
        ∀ node ∈ nodes, node.isObject = true) →
      ∀ {nodes}, (do
          let left ← eventOperatorSerialiseNodes sys l
          let right ← eventOperatorSerialiseNodes sys r
          let node ← eventOperatorSerialise sys type value none [] none
          some (left ++ right ++ [node])) = some nodes →
        ∀ node ∈ nodes, node.isObject = true := by
    intro type value l r hl hr nodes h node hnode
    obtain ⟨left, hleft, h⟩ := Option.bind_eq_some_iff.mp h
    obtain ⟨right, hright, h⟩ := Option.bind_eq_some_iff.mp h
    obtain ⟨last, hlast, h⟩ := Option.bind_eq_some_iff.mp h
    cases h
    simp only [List.mem_append, List.mem_singleton] at hnode
    rcases hnode with (hnode | hnode) | rfl
    · exact hl hleft node hnode
    · exact hr hright node hnode
    · exact isObject_of_serialise hlast
  induction root with
  | eventMatch name env value event =>
    intro nodes h node hnode
    obtain ⟨json, hjson, h⟩ := Option.bind_eq_some_iff.mp h
    cases h
    rw [List.mem_singleton] at hnode
    exact hnode ▸ isObject_of_serialise hjson
  | eventAnd value l r ihl ihr => exact hinner .eventAnd value l r ihl ihr
  | eventOr value l r ihl ihr => exact hinner .eventOr value l r ihl ihr

/-- What is written of a tree is an image of it. -/
theorem imageOf_serialise {root : EventOperator}
    (hqueued : ∀ e ∈ root.refs, (sys.event? e).isSome = true) :
    ∃ items, eventOperatorSerialiseAll sys root = some (.array items) ∧ ImageOf sys root items := by
  obtain ⟨nodes, hnodes, -⟩ := foldlM_pushOperator hqueued rfl
  refine ⟨nodes, by rw [eventOperatorSerialiseAll, hnodes]; rfl, hqueued, nodes, hnodes, ?_⟩
  rw [List.forall₂_same]
  intro node hnode
  have hobject := isObject_of_serialiseNodes hnodes node hnode
  exact ⟨hobject, hobject, fun _ => rfl⟩

end Loop

/-! ## Acceptance -/

/-- Every tree whose events are in the queue is read back from what is written of it.  Another
array is refused exactly when its first node that is not accepted is one to refuse, and
nothing that is asserted comes before it. -/
theorem eventOperatorDeserialiseItems_iff (sys : Sys) (blockers : EventId → Nat) :
    (∀ root : EventOperator, (∀ e ∈ root.refs, (sys.event? e).isSome = true) →
      ∃ items, eventOperatorSerialiseAll sys root = some (.array items) ∧
        eventOperatorDeserialiseItems sys.events.length blockers items =
          .ok (root.mapRefs sys.indexOf)) ∧
    ∀ items, AcceptsImages sys blockers items ↔
      (∃ root, ImageOf sys root items) ∨ RefusedInTime sys.events.length blockers items := by
  constructor
  · intro root hqueued
    obtain ⟨items, hitems, himage⟩ := imageOf_serialise hqueued
    exact ⟨items, hitems, himage.restored _⟩
  · intro items
    constructor
    · intro h
      by_cases himage : ∃ root, ImageOf sys root items
      · exact .inl himage
      · exact .inr ((eventOperatorDeserialiseItems_refused _ _ _).mp (h.2 himage))
    · intro h
      refine ⟨fun root hroot => hroot.restored _, fun hnot => ?_⟩
      rcases h with h | h
      · exact absurd h hnot
      · exact (eventOperatorDeserialiseItems_refused _ _ _).mpr h

/-- A queue with one event, which blocks nothing. -/
def oneEvent : Sys :=
  ⟨[{ id := 7, name := "a", env := [], fd := -1, progress := .handling, failed := false,
      blockers := 1, blocking := [], valid := environAllValid_nil }], 7, 0, []⟩

/-- A condition that the event has matched in part. -/
theorem eventOperatorDeserialiseItems_iff_half :
    (∃ items,
      eventOperatorSerialiseAll oneEvent (.eventAnd false (.eventMatch "a" [] true (some 7))
        (.eventMatch "b" ["X=1"] false none)) = some (.array items) ∧
      eventOperatorDeserialiseItems oneEvent.events.length (fun _ => 1) items =
        .ok (.eventAnd false (.eventMatch "a" [] true (some 0))
          (.eventMatch "b" ["X=1"] false none))) ∧
    ∀ items, AcceptsImages oneEvent (fun _ => 1) items ↔
      (∃ root, ImageOf oneEvent root items) ∨
        RefusedInTime oneEvent.events.length (fun _ => 1) items :=
  ⟨(eventOperatorDeserialiseItems_iff oneEvent fun _ => 1).1
      (.eventAnd false (.eventMatch "a" [] true (some 7)) (.eventMatch "b" ["X=1"] false none))
      (by decide),
    (eventOperatorDeserialiseItems_iff oneEvent fun _ => 1).2⟩

/-- An operator without children is no image, and an assertion fails. -/
theorem childlessOperator_assertion :
    (¬ ∃ root, ImageOf oneEvent root
      [.object [("type", .string "EVENT_AND"), ("value", .int 0)]]) ∧
    eventOperatorDeserialiseItems oneEvent.events.length (fun _ => 1)
        [.object [("type", .string "EVENT_AND"), ("value", .int 0)]] =
      .error (.fault (.assertFailed .eventOperatorDeserialiseAll)) ∧
    ¬ AcceptsImages oneEvent (fun _ => 1)
      [.object [("type", .string "EVENT_AND"), ("value", .int 0)]] := by
  have hfault : eventOperatorDeserialiseItems oneEvent.events.length (fun _ => 1)
      [.object [("type", .string "EVENT_AND"), ("value", .int 0)]] =
        .error (.fault (.assertFailed .eventOperatorDeserialiseAll)) := rfl
  have hnot : ¬ ∃ root, ImageOf oneEvent root
      [.object [("type", .string "EVENT_AND"), ("value", .int 0)]] := by
    intro h
    obtain ⟨root, hroot⟩ := h
    have hread := hroot.restored fun _ => 1
    rw [hfault] at hread
    cases hread
  refine ⟨hnot, hfault, fun h => ?_⟩
  have hread := h.2 hnot
  rw [hfault] at hread
  cases hread

end Startup
