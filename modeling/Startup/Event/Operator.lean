import Startup.Basic

/-!
# Event operators (`init/event_operator.c`)

A `start on` or `stop on` condition is a tree whose leaves match events.  The
tree functions are pure here; those that change the blocker counts of events
return the events that they block or unblock, and the wrappers at the end of
the definitions apply `event_block` and `event_unblock` to them.
-/

namespace Startup

/-- `EventOperator`.  A leaf carries the name and arguments to match and the
event that matched it. -/
inductive EventOperator where
  | eventMatch (name : String) (env : List String) (value : Bool) (event : Option EventId)
  | eventAnd (value : Bool) (left right : EventOperator)
  | eventOr (value : Bool) (left right : EventOperator)
  deriving DecidableEq, Repr

namespace EventOperator

/-- The `value` field. -/
def value : EventOperator → Bool
  | eventMatch _ _ v _ => v
  | eventAnd v _ _ => v
  | eventOr v _ _ => v

/-- The `event` fields of the leaves that have one, from left to right. -/
def refs : EventOperator → List EventId
  | eventMatch _ _ _ event => event.toList
  | eventAnd _ l r => l.refs ++ r.refs
  | eventOr _ l r => l.refs ++ r.refs

/-- The leaves that `event_operator_filter` leaves in an iteration, from left
to right, by their `event` field: a node whose value is not `TRUE` is skipped
with its children. -/
def filtered : EventOperator → List (Option EventId)
  | eventMatch _ _ v event => if v then [event] else []
  | eventAnd v l r => if v then l.filtered ++ r.filtered else []
  | eventOr v l r => if v then l.filtered ++ r.filtered else []

end EventOperator

/-! ## Matching -/

/-- `strstr (str, "!=")`. -/
def findNotEq : List Char → Option Nat
  | [] => none
  | [_] => none
  | a :: b :: rest =>
    if a = '!' ∧ b = '=' then some 0 else (findNotEq (b :: rest)).map (· + 1)

/-- How `event_operator_match` splits an argument: the length of the name,
whether the comparison is negated, and where the value starts.  `none` is a
positional argument. -/
def splitArgument (arg : List Char) : Option (Nat × Bool × Nat) :=
  match findNotEq arg with
  | some i => some (i, true, i + 2)
  | none => (arg.findIdx? (· = '=')).map fun i => (i, false, i + 1)

/-- The loop of `event_operator_match` over the arguments of the operator.
`pos` is the entry of the event environment that the next positional argument
is compared with. -/
def matchArguments (x : Host) (eventEnv env : List String) : List String → Nat → Bool
  | [], _ => true
  | arg :: args, pos =>
    let split := splitArgument arg.toList
    let entry : Option Nat :=
      match split with
      | some (len, _, _) => environLookup eventEnv (arg.toList.take len)
      | none => some pos
    let (negate, valueAt) :=
      match split with
      | some (_, negate, at_) => (negate, at_)
      | none => (false, 0)
    match entry with
    | none => false
    | some i =>
      match eventEnv[i]? with
      | none => false
      | some e =>
        let eval := String.ofList ((e.toList.dropWhile (· ≠ '=')).drop 1)
        match environExpand (String.ofList (arg.toList.drop valueAt)) env with
        | .error _ => false
        | .ok expoval =>
          if (x.fnmatch expoval eval) = negate then false
          else matchArguments x eventEnv env args (i + 1)

/-- `event_operator_match` for a leaf of the given name and arguments. -/
def eventOperatorMatch (x : Host) (name : String) (oenv : List String) (event : Event)
    (env : List String) : Bool :=
  name == event.name && matchArguments x event.env env oenv 0

/-! ## Handling and resetting -/

/-- `event_operator_update` for an `EVENT_AND` node. -/
def updateAnd (l r : EventOperator) : EventOperator :=
  .eventAnd (l.value && r.value) l r

/-- `event_operator_update` for an `EVENT_OR` node. -/
def updateOr (l r : EventOperator) : EventOperator :=
  .eventOr (l.value || r.value) l r

/-- `event_operator_handle`: the tree after the event, and the number of
leaves that the event newly matched.  Each of them calls `event_block`, and
the function returns `TRUE` when there is one. -/
def eventOperatorHandle (x : Host) (event : Event) (env : List String) :
    EventOperator → EventOperator × Nat
  | .eventMatch name oenv value ev =>
    if !value && eventOperatorMatch x name oenv event env then
      (.eventMatch name oenv true (some event.id), 1)
    else (.eventMatch name oenv value ev, 0)
  | .eventAnd _ l r =>
    let (l, m) := eventOperatorHandle x event env l
    let (r, n) := eventOperatorHandle x event env r
    (updateAnd l r, m + n)
  | .eventOr _ l r =>
    let (l, m) := eventOperatorHandle x event env l
    let (r, n) := eventOperatorHandle x event env r
    (updateOr l r, m + n)

/-- `event_operator_reset`: the tree without its matches.  The events of its
leaves are unblocked. -/
def eventOperatorReset : EventOperator → EventOperator
  | .eventMatch name oenv _ _ => .eventMatch name oenv false none
  | .eventAnd _ l r => updateAnd (eventOperatorReset l) (eventOperatorReset r)
  | .eventOr _ l r => updateOr (eventOperatorReset l) (eventOperatorReset r)

/-! ## Effects on the event queue -/

/-- `event_unblock` of each event in turn. -/
def unblockAll (sys : Sys) (es : List EventId) : Except Fault Sys :=
  es.foldlM eventUnblock sys

/-- `event_block` of each event in turn. -/
def blockAll (sys : Sys) (es : List EventId) : Except Fault Sys :=
  es.foldlM eventBlock sys

/-- `event_operator_handle` with its calls of `event_block`. -/
def handleOperator (x : Host) (sys : Sys) (root : EventOperator) (event : Event)
    (env : List String) : Except Fault (Sys × EventOperator × Bool) := do
  let (root, n) := eventOperatorHandle x event env root
  let sys ← blockAll sys (List.replicate n event.id)
  .ok (sys, root, n != 0)

/-- `event_operator_reset` with its calls of `event_unblock`. -/
def resetOperator (sys : Sys) (root : EventOperator) :
    Except Fault (Sys × EventOperator) := do
  let sys ← unblockAll sys root.refs
  .ok (sys, eventOperatorReset root)

/-- `event_operator_copy`: the copy has the matches of the original and blocks
their events once more. -/
def copyOperator (sys : Sys) (root : EventOperator) :
    Except Fault (Sys × EventOperator) := do
  let sys ← blockAll sys root.refs
  .ok (sys, root)

/-- `event_operator_destroy` for every node of a tree that is freed. -/
def destroyOperator (sys : Sys) (root : Option EventOperator) : Except Fault Sys :=
  match root with
  | none => .ok sys
  | some root => unblockAll sys root.refs

/-- The events of the leaves that an iteration over a condition visits. -/
def filteredEvents (fn : SourceFn) (sys : Sys) (root : EventOperator) :
    Except Fault (List Event) :=
  root.filtered.mapM fun ref =>
    match ref with
    | none => .error (.assertFailed fn)
    | some e =>
      match sys.event? e with
      | none => .error (.useAfterFree fn)
      | some event => .ok event

/-- `event_operator_environment`: the variables of the events of a condition,
and a variable `key` with their names. -/
def eventOperatorEnvironment (x : Host) (sys : Sys) (root : EventOperator)
    (env : List String) (key : String) : Except Fault (List String) := do
  let events ← filteredEvents .eventOperatorEnvironment sys root
  let env := events.foldl (fun env event => environAppend x.getenv env true event.env) env
  let evlist := events.foldl (fun evlist event =>
    if evlist.toList.getLast? = some '=' then evlist ++ event.name
    else evlist ++ " " ++ event.name) (key ++ "=")
  .ok (environAdd x.getenv env true evlist)

/-- `event_operator_fds`: the file descriptors of the events of a condition,
and a variable `key` with their numbers when there are any. -/
def eventOperatorFds (x : Host) (sys : Sys) (root : EventOperator) (env : List String)
    (key : String) : Except Fault (List Int × List String) := do
  let events ← filteredEvents .eventOperatorFds sys root
  let fds := (events.map (·.fd)).filter (· ≥ 0)
  let evlist := fds.foldl (fun evlist fd =>
    if evlist.toList.getLast? = some '=' then evlist ++ toString fd
    else evlist ++ " " ++ toString fd) (key ++ "=")
  .ok (fds, if fds.isEmpty then env else environAdd x.getenv env true evlist)

/-- `event_operator_events`: a `BLOCKED_EVENT` entry, and a block, for each
event of a condition. -/
def eventOperatorEvents (sys : Sys) (root : EventOperator) :
    Except Fault (Sys × List Blocked) := do
  let events ← filteredEvents .eventOperatorEvents sys root
  let sys ← blockAll sys (events.map (·.id))
  .ok (sys, events.map fun e => .event e.id)

/-! ## Leaves and the events they refer to -/

namespace EventOperator

/-- Every leaf is true exactly when it refers to an event. -/
def Linked : EventOperator → Prop
  | eventMatch _ _ v event => v = event.isSome
  | eventAnd _ l r => l.Linked ∧ r.Linked
  | eventOr _ l r => l.Linked ∧ r.Linked

/-- Handling an event adds one reference to it for each leaf it matches. -/
theorem count_refs_handle (x : Host) (event : Event) (env : List String)
    {root : EventOperator} (h : root.Linked) (e : EventId) :
    (eventOperatorHandle x event env root).1.refs.count e =
      root.refs.count e +
        (if e = event.id then (eventOperatorHandle x event env root).2 else 0) := by
  induction root with
  | eventMatch name oenv v ev =>
    simp only [eventOperatorHandle]
    split
    · rename_i hc
      have hv : v = false := by simpa using (Bool.and_eq_true_iff.mp hc).1
      have hev : ev = none := by
        simpa [Linked, hv] using h
      subst hev
      by_cases he : e = event.id
      · simp [refs, he]
      · simp [refs, he, Ne.symm he]
    · simp
  | eventAnd v l r ihl ihr =>
    simp only [eventOperatorHandle, updateAnd, refs, List.count_append, ihl h.1, ihr h.2]
    split <;> omega
  | eventOr v l r ihl ihr =>
    simp only [eventOperatorHandle, updateOr, refs, List.count_append, ihl h.1, ihr h.2]
    split <;> omega

theorem Linked.handle {root : EventOperator} (h : root.Linked) (x : Host) (event : Event)
    (env : List String) : (eventOperatorHandle x event env root).1.Linked := by
  induction root with
  | eventMatch name oenv v ev =>
    simp only [eventOperatorHandle]
    split
    · rfl
    · exact h
  | eventAnd v l r ihl ihr => exact ⟨ihl h.1, ihr h.2⟩
  | eventOr v l r ihl ihr => exact ⟨ihl h.1, ihr h.2⟩

@[simp] theorem refs_reset (root : EventOperator) : (eventOperatorReset root).refs = [] := by
  induction root with
  | eventMatch name oenv v ev => rfl
  | eventAnd v l r ihl ihr => simp [eventOperatorReset, updateAnd, refs, ihl, ihr]
  | eventOr v l r ihl ihr => simp [eventOperatorReset, updateOr, refs, ihl, ihr]

theorem linked_reset (root : EventOperator) : (eventOperatorReset root).Linked := by
  induction root with
  | eventMatch name oenv v ev => rfl
  | eventAnd v l r ihl ihr => exact ⟨ihl, ihr⟩
  | eventOr v l r ihl ihr => exact ⟨ihl, ihr⟩

/-- The leaves that an iteration visits are true leaves, so that each refers
to an event of the tree. -/
theorem Linked.mem_filtered {root : EventOperator} (h : root.Linked) {ref : Option EventId}
    (hm : ref ∈ root.filtered) : ∃ e ∈ root.refs, ref = some e := by
  induction root with
  | eventMatch name oenv v ev =>
    simp only [filtered] at hm
    split at hm
    · rename_i hv
      rw [List.mem_singleton.mp hm]
      have hs : ev.isSome = true := by
        rw [← hv]
        exact h.symm
      obtain ⟨e, rfl⟩ := Option.isSome_iff_exists.mp hs
      exact ⟨e, by simp [refs], rfl⟩
    · simp at hm
  | eventAnd v l r ihl ihr =>
    simp only [filtered] at hm
    split at hm
    · rcases List.mem_append.mp hm with hm | hm
      · obtain ⟨e, he, rfl⟩ := ihl h.1 hm
        exact ⟨e, List.mem_append_left _ he, rfl⟩
      · obtain ⟨e, he, rfl⟩ := ihr h.2 hm
        exact ⟨e, List.mem_append_right _ he, rfl⟩
    · simp at hm
  | eventOr v l r ihl ihr =>
    simp only [filtered] at hm
    split at hm
    · rcases List.mem_append.mp hm with hm | hm
      · obtain ⟨e, he, rfl⟩ := ihl h.1 hm
        exact ⟨e, List.mem_append_left _ he, rfl⟩
      · obtain ⟨e, he, rfl⟩ := ihr h.2 hm
        exact ⟨e, List.mem_append_right _ he, rfl⟩
    · simp at hm

end EventOperator

end Startup
