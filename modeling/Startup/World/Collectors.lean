import Startup.World.Environment
import Startup.Event.Semantics

/-!
# What is collected from a condition (`init/event_operator.c`)

`event_operator_environment`, `event_operator_fds` and `event_operator_events` each go through a
condition on their own, and leave out what is not `TRUE`.

* `treeForeachFull`, and a pass over a node for each function: `environmentPass`, `fdsPass` and
  `eventsPass`;
* `activeMatches`: the leaves that are true and so are all the nodes above them;
* `keyedList_iff`: when the names in a list are separated;
* `TreeRun.collectors_agree_iff`: the three functions collect from the same leaves in the same
  order; when the list of names is right.
-/

namespace Startup

open Lib

variable {x : Host} {sys : Sys} {root : EventOperator}

/-! ## The traversals -/

/-- `event_operator_filter`. -/
def eventOperatorFilter (oper : EventOperator) : Bool := oper.value != true

/-- `NIH_TREE_FOREACH_FULL`: the nodes in tree order; one that the filter takes is left out
with its children. -/
def treeForeachFull (filter : EventOperator → Bool) : EventOperator → List EventOperator
  | .eventMatch name env value event =>
    if filter (.eventMatch name env value event) then [] else [.eventMatch name env value event]
  | .eventAnd value l r =>
    if filter (.eventAnd value l r) then []
    else treeForeachFull filter l ++ .eventAnd value l r :: treeForeachFull filter r
  | .eventOr value l r =>
    if filter (.eventOr value l r) then []
    else treeForeachFull filter l ++ .eventOr value l r :: treeForeachFull filter r

/-- `oper->event` of a leaf, which is asserted and then read; other nodes are passed over. -/
def collectedEvent (fn : SourceFn) (sys : Sys) : EventOperator → Except Fault (Option Event)
  | .eventMatch _ _ _ none => .error (.assertFailed fn)
  | .eventMatch _ _ _ (some e) =>
    match sys.event? e with
    | none => .error (.useAfterFree fn)
    | some event => .ok (some event)
  | .eventAnd _ _ _ => .ok none
  | .eventOr _ _ _ => .ok none

/-- A text is added to a list variable. -/
def appendText (evlist text : String) : String :=
  if evlist.toList.getLast? = some '=' then evlist ++ text else evlist ++ " " ++ text

/-- One pass of the loop in `event_operator_environment`. -/
def environmentPass (x : Host) (sys : Sys) (s : List String × String) (oper : EventOperator) :
    Except Fault (List String × String) := do
  match ← collectedEvent .eventOperatorEnvironment sys oper with
  | none => .ok s
  | some event =>
    .ok (environAppend x.getenv s.1 true event.env, appendText s.2 event.name)

/-- `event_operator_environment`. -/
def collectEnvironment (x : Host) (sys : Sys) (root : EventOperator) (env : List String)
    (key : String) : Except Fault (List String) := do
  let (env, evlist) ←
    (treeForeachFull eventOperatorFilter root).foldlM (environmentPass x sys) (env, key ++ "=")
  .ok (environAdd x.getenv env true evlist)

/-- One pass of the loop in `event_operator_fds`. -/
def fdsPass (sys : Sys) (s : List Int × String) (oper : EventOperator) :
    Except Fault (List Int × String) := do
  match ← collectedEvent .eventOperatorFds sys oper with
  | none => .ok s
  | some event =>
    if event.fd ≥ 0 then .ok (s.1 ++ [event.fd], appendText s.2 (toString event.fd)) else .ok s

/-- `event_operator_fds`. -/
def collectFds (x : Host) (sys : Sys) (root : EventOperator) (env : List String) (key : String) :
    Except Fault (List Int × List String) := do
  let (fds, evlist) ←
    (treeForeachFull eventOperatorFilter root).foldlM (fdsPass sys) ([], key ++ "=")
  .ok (fds, if fds.isEmpty then env else environAdd x.getenv env true evlist)

/-- One pass of the loop in `event_operator_events`. -/
def eventsPass (s : Sys × List Blocked) (oper : EventOperator) :
    Except Fault (Sys × List Blocked) := do
  match ← collectedEvent .eventOperatorEvents s.1 oper with
  | none => .ok s
  | some event =>
    let sys ← eventBlock s.1 event.id
    .ok (sys, s.2 ++ [.event event.id])

/-- `event_operator_events`. -/
def collectEvents (sys : Sys) (root : EventOperator) : Except Fault (Sys × List Blocked) :=
  (treeForeachFull eventOperatorFilter root).foldlM eventsPass (sys, [])

/-! ## The leaves that are to be collected -/

/-- The events of the leaves that are true, as all nodes above them are, in tree order.
`above` says whether the nodes above the tree are true. -/
def activeMatches (above : Bool) : EventOperator → List (Option EventId)
  | .eventMatch _ _ value event => if above && value then [event] else []
  | .eventAnd value l r => activeMatches (above && value) l ++ activeMatches (above && value) r
  | .eventOr value l r => activeMatches (above && value) l ++ activeMatches (above && value) r

/-- The events of these leaves. -/
def activeEvents (sys : Sys) (root : EventOperator) : List Event :=
  (activeMatches true root).filterMap fun ref => ref.bind sys.event?

/-- The value that a variable has when the variables of events have been merged into a table,
those of later events in place of earlier ones. -/
def mergedValue (env : List String) (events : List Event) (key : List Char) :
    Option (List Char) :=
  ((events.flatMap Event.env).filter fun e => entryKey e = key).getLast?.elim (tableValue env key)
    fun e => some (entryValue e)

/-- The texts separated by single spaces. -/
def spaced (texts : List String) : List Char := (" ".intercalate texts).toList

/-- The three functions collect from the leaves of `events`, in their order. -/
structure CollectsFrom (x : Host) (sys : Sys) (root : EventOperator) (env : List String)
    (key fdKey : String) (events : List Event) : Prop where
  /-- the leaves are those that are to be collected, and each has an event -/
  active : activeMatches true root = events.map fun event => some event.id
  queued : ∀ event ∈ events, sys.event? event.id = some event
  environment : ∃ env', collectEnvironment x sys root env key = .ok env' ∧
    tableValue env' key.toList = some (spaced (events.map Event.name)) ∧
    (∀ var, var ≠ key.toList → tableValue env' var = mergedValue env events var)
  fds : ∃ fds env', collectFds x sys root env fdKey = .ok (fds, env') ∧
    fds = (events.map Event.fd).filter (· ≥ 0) ∧
    (fds ≠ [] → tableValue env' fdKey.toList = some (spaced (fds.map toString))) ∧
    (∀ var, fds = [] ∨ var ≠ fdKey.toList → tableValue env' var = tableValue env var)
  blocks : ∃ sys' entries, collectEvents sys root = .ok (sys', entries) ∧
    entries = events.map (fun event => .event event.id) ∧
    ∀ e, sys'.blockers e = sys.blockers e + (events.map Event.id).count e

/-- No name but the last one ends in `=`. -/
def Separated (names : List String) : Prop :=
  ∀ name ∈ names.dropLast, name.toList.getLast? ≠ some '='

/-! ## List variables -/

section Lists

variable {texts : List String} {text : String}

theorem spaced_concat (texts : List String) (text : String) :
    spaced (texts ++ [text]) =
      if texts = [] then text.toList else spaced texts ++ ' ' :: text.toList := by
  unfold spaced
  split
  · rename_i h
    rw [h, List.nil_append, String.intercalate_singleton]
  · rename_i h
    rw [String.intercalate_append_of_ne_nil h (by simp), String.intercalate_singleton]
    simp

theorem keyedList_concat (key : String) (texts : List String) (text : String) :
    (keyedList key (texts ++ [text])).toList =
      if (keyedList key texts).toList.getLast? = some '=' then
        (keyedList key texts).toList ++ text.toList
      else (keyedList key texts).toList ++ ' ' :: text.toList := by
  have hstep : keyedList key (texts ++ [text]) = appendText (keyedList key texts) text := by
    unfold keyedList
    rw [List.foldl_append]
    rfl
  rw [hstep, appendText]
  split <;> simp

theorem separated_concat (h : texts ≠ []) :
    Separated (texts ++ [text]) ↔
      Separated texts ∧ (texts.getLast h).toList.getLast? ≠ some '=' := by
  unfold Separated
  rw [List.dropLast_concat]
  constructor
  · intro hall
    exact ⟨fun name hname => hall name (List.dropLast_subset _ hname),
      hall _ (List.getLast_mem h)⟩
  · intro hboth name hname
    rw [← List.dropLast_append_getLast h, List.mem_append, List.mem_singleton] at hname
    rcases hname with hname | rfl
    · exact hboth.1 name hname
    · exact hboth.2

/-- The last character of a list is that of its last text. -/
theorem getLast?_spaced (c : Char) (hnil : texts ≠ []) (hne : texts.getLast hnil ≠ "") :
    (c :: spaced texts).getLast? = (texts.getLast hnil).toList.getLast? := by
  have hlast : (texts.getLast hnil).toList ≠ [] := by
    intro h
    exact hne (String.toList_eq_nil_iff.mp h)
  have hconcat := spaced_concat texts.dropLast (texts.getLast hnil)
  rw [List.dropLast_append_getLast] at hconcat
  rw [hconcat]
  split
  · exact List.getLast?_cons_of_ne_nil hlast
  · rw [← List.cons_append, List.getLast?_append, List.getLast?_cons_of_ne_nil hlast,
      List.getLast?_eq_some_getLast hlast]
    rfl

/-- What a list variable is: the texts separated by spaces, or something shorter. -/
theorem keyedList_cases (key : String) (hne : ∀ text ∈ texts, text ≠ "") :
    (Separated texts → (keyedList key texts).toList = key.toList ++ '=' :: spaced texts) ∧
      (¬ Separated texts →
        (keyedList key texts).toList.length < key.toList.length + 1 + (spaced texts).length) := by
  induction texts using List.reverseRecOn with
  | nil =>
    refine ⟨fun _ => by simp [keyedList, spaced], fun h => ?_⟩
    exact absurd (fun name hname => by simp at hname) h
  | append_singleton texts text ih =>
    have ih := ih fun t ht => hne t (List.mem_append_left _ ht)
    by_cases hnil : texts = []
    · subst hnil
      refine ⟨fun _ => ?_, fun h => absurd (fun name hname => by simp at hname) h⟩
      rw [keyedList_concat, spaced_concat, if_pos (by simp [keyedList]), if_pos rfl]
      simp [keyedList]
    rw [keyedList_concat, spaced_concat, if_neg hnil, separated_concat hnil]
    by_cases hsep : Separated texts
    · -- the last character of the variable is that of the last text
      have hlist := ih.1 hsep
      have hlast : (keyedList key texts).toList.getLast? =
          (texts.getLast hnil).toList.getLast? := by
        rw [hlist, List.getLast?_append,
          ← getLast?_spaced '=' hnil (hne _ (List.mem_append_left _ (List.getLast_mem hnil))),
          List.getLast?_eq_some_getLast (List.cons_ne_nil _ _)]
        rfl
      rw [hlast]
      constructor
      · intro hboth
        rw [if_neg hboth.2, hlist]
        simp
      · intro hnot
        have hends : (texts.getLast hnil).toList.getLast? = some '=' := by
          by_contra h
          exact hnot ⟨hsep, h⟩
        rw [if_pos hends, hlist]
        simp only [List.length_append, List.length_cons]
        omega
    · refine ⟨fun hboth => absurd hboth.1 hsep, fun _ => ?_⟩
      have hlt := ih.2 hsep
      split
      · simp only [List.length_append, List.length_cons]
        omega
      · simp only [List.length_append, List.length_cons]
        omega

/-- A list variable has the texts separated by spaces exactly when no text but the last one ends
in `=`. -/
theorem keyedList_iff (key : String) (hne : ∀ text ∈ texts, text ≠ "") :
    (keyedList key texts).toList = key.toList ++ '=' :: spaced texts ↔ Separated texts := by
  obtain ⟨hsep, hnot⟩ := keyedList_cases key hne
  refine ⟨fun heq => ?_, hsep⟩
  by_contra h
  have hlt := hnot h
  rw [heq] at hlt
  simp only [List.length_append, List.length_cons] at hlt
  omega

/-- The number of a descriptor is digits. -/
theorem toList_toString (n : Nat) : (toString (n : Int)).toList = Nat.toDigits 10 n := by
  have hrepr : toString (n : Int) = Nat.repr n := rfl
  rw [hrepr, Nat.toList_repr]

theorem separated_numbers (fds : List Int) :
    Separated ((fds.filter (· ≥ 0)).map toString) ∧
      ∀ text ∈ (fds.filter (· ≥ 0)).map toString, text ≠ "" := by
  have hnumber : ∀ text ∈ (fds.filter (· ≥ 0)).map toString, ∃ n, text.toList = Nat.toDigits 10 n := by
    intro text htext
    obtain ⟨fd, hfd, rfl⟩ := List.mem_map.mp htext
    have hpos : 0 ≤ fd := by simpa using (List.mem_filter.mp hfd).2
    obtain ⟨n, rfl⟩ := Int.eq_ofNat_of_zero_le hpos
    exact ⟨n, toList_toString n⟩
  constructor
  · intro text htext hlast
    obtain ⟨n, hn⟩ := hnumber text (List.dropLast_subset _ htext)
    have hmem := List.mem_of_getLast? hlast
    rw [hn] at hmem
    have hdigit := Nat.isDigit_of_mem_toDigits (by decide) (by decide) hmem
    exact absurd hdigit (by decide)
  · intro text htext hempty
    obtain ⟨n, hn⟩ := hnumber text htext
    rw [hempty] at hn
    exact Nat.toDigits_ne_nil hn.symm

end Lists

/-! ## The passes -/

/-- The leaf of a node, as the iterations see it. -/
def leafRef : EventOperator → List (Option EventId)
  | .eventMatch _ _ _ event => [event]
  | .eventAnd _ _ _ => []
  | .eventOr _ _ _ => []

/-- Skipping what is not `TRUE` leaves the leaves that are true below true nodes. -/
theorem activeMatches_eq (root : EventOperator) :
    activeMatches false root = [] ∧
      activeMatches true root = (treeForeachFull eventOperatorFilter root).flatMap leafRef := by
  induction root with
  | eventMatch name env value event =>
    cases value <;> simp [activeMatches, treeForeachFull, eventOperatorFilter, leafRef, EventOperator.value]
  | eventAnd value l r ihl ihr =>
    cases value with
    | false =>
      simp [activeMatches, treeForeachFull, eventOperatorFilter, EventOperator.value, ihl.1, ihr.1]
    | true =>
      simp [activeMatches, treeForeachFull, eventOperatorFilter, EventOperator.value, leafRef, ihl,
        ihr]
  | eventOr value l r ihl ihr =>
    cases value with
    | false =>
      simp [activeMatches, treeForeachFull, eventOperatorFilter, EventOperator.value, ihl.1, ihr.1]
    | true =>
      simp [activeMatches, treeForeachFull, eventOperatorFilter, EventOperator.value, leafRef, ihl,
        ihr]

/-- The leaves that the model of the iterations has. -/
theorem filtered_eq (root : EventOperator) : root.filtered = activeMatches true root := by
  have hfalse : ∀ root, activeMatches false root = [] := fun root => (activeMatches_eq root).1
  induction root with
  | eventMatch name env value event => cases value <;> simp [EventOperator.filtered, activeMatches]
  | eventAnd value l r ihl ihr =>
    cases value <;> simp [EventOperator.filtered, activeMatches, ihl, ihr, hfalse]
  | eventOr value l r ihl ihr =>
    cases value <;> simp [EventOperator.filtered, activeMatches, ihl, ihr, hfalse]

/-- The events that the nodes refer to are there. -/
def AllQueued (sys : Sys) (nodes : List EventOperator) : Prop :=
  ∀ ref ∈ nodes.flatMap leafRef, ∃ e, ref = some e ∧ (sys.event? e).isSome = true

/-- A loop whose passes only look at the events of the leaves goes through these events. -/
theorem foldlM_collected {σ : Type} {fn : SourceFn} {pass : σ → EventOperator → Except Fault σ}
    {f : σ → Event → σ}
    (hpass : ∀ s oper, pass s oper = do
      match ← collectedEvent fn sys oper with
      | none => .ok s
      | some event => .ok (f s event))
    {nodes : List EventOperator} (h : AllQueued sys nodes) (s : σ) :
    nodes.foldlM pass s =
      .ok (((nodes.flatMap leafRef).filterMap fun ref => ref.bind sys.event?).foldl f s) := by
  induction nodes generalizing s with
  | nil => rfl
  | cons oper nodes ih =>
    have hrest : AllQueued sys nodes := fun ref href => h ref (by
      rw [List.flatMap_cons]
      exact List.mem_append_right _ href)
    rw [List.foldlM_cons, hpass]
    cases oper with
    | eventMatch name env value event =>
      obtain ⟨e, rfl, he⟩ := h event (by simp [leafRef])
      obtain ⟨ev, hev⟩ := Option.isSome_iff_exists.mp he
      have hcollected : collectedEvent fn sys (.eventMatch name env value (some e)) =
          .ok (some ev) := by
        simp [collectedEvent, hev]
      rw [hcollected]
      refine (ih hrest (f s ev)).trans ?_
      simp [leafRef, hev]
    | eventAnd value l r => exact ih hrest s
    | eventOr value l r => exact ih hrest s

theorem AllQueued.of_grounded (h : Grounded sys root) :
    AllQueued sys (treeForeachFull eventOperatorFilter root) := by
  intro ref href
  rw [← (activeMatches_eq root).2, ← filtered_eq] at href
  obtain ⟨e, he, rfl⟩ := h.linked.mem_filtered href
  exact ⟨e, rfl, h.queued e he⟩

/-- The leaves refer to the events that are collected. -/
theorem found_refs_eq {refs : List (Option EventId)}
    (h : ∀ ref ∈ refs, ∃ e, ref = some e ∧ (sys.event? e).isSome = true) :
    refs = (refs.filterMap fun ref => ref.bind sys.event?).map (fun event => some event.id) ∧
      ∀ event ∈ refs.filterMap (fun ref => ref.bind sys.event?), sys.event? event.id = some event := by
  induction refs with
  | nil => simp
  | cons ref refs ih =>
    obtain ⟨e, rfl, he⟩ := h ref List.mem_cons_self
    obtain ⟨ev, hev⟩ := Option.isSome_iff_exists.mp he
    have hid : ev.id = e := by simpa using List.find?_some hev
    obtain ⟨hrefs, hfound⟩ := ih fun r hr => h r (List.mem_cons_of_mem _ hr)
    have hcons : (some e :: refs).filterMap (fun ref => ref.bind sys.event?) =
        ev :: refs.filterMap fun ref => ref.bind sys.event? := List.filterMap_cons_some hev
    rw [hcons]
    constructor
    · rw [List.map_cons, ← hrefs, hid]
    · intro event hevent
      rcases List.mem_cons.mp hevent with rfl | hevent
      · rw [hid]
        exact hev
      · exact hfound event hevent

/-- The loop of `event_operator_events` blocks each of these events once for each leaf. -/
theorem foldlM_eventsPass {nodes : List EventOperator} :
    ∀ {sys : Sys} (list : List Blocked), AllQueued sys nodes →
      ∃ sys', nodes.foldlM eventsPass (sys, list) =
          .ok (sys', list ++ ((nodes.flatMap leafRef).filterMap id).map Blocked.event) ∧
        ∀ e, sys'.blockers e = sys.blockers e + ((nodes.flatMap leafRef).filterMap id).count e := by
  induction nodes with
  | nil => exact fun {sys} list _ => ⟨sys, by simp [List.foldlM, pure, Except.pure], by simp⟩
  | cons oper nodes ih =>
    intro sys list h
    have hrest : ∀ {sys'}, Touches sys sys' → AllQueued sys' nodes := by
      intro sys' ht ref href
      obtain ⟨e, he, hsome⟩ := h ref (by
        rw [List.flatMap_cons]
        exact List.mem_append_right _ href)
      exact ⟨e, he, ht.event?_isSome hsome⟩
    rw [List.foldlM_cons]
    cases oper with
    | eventMatch name env value event =>
      obtain ⟨e, rfl, he⟩ := h event (by simp [leafRef])
      obtain ⟨ev, hev⟩ := Option.isSome_iff_exists.mp he
      have hid : ev.id = e := by simpa using List.find?_some hev
      obtain ⟨sys₁, hblock, htouches, hcount⟩ := (eventBlock_sat he).exists_ok
      have hpass : eventsPass (sys, list) (.eventMatch name env value (some e)) =
          .ok (sys₁, list ++ [.event e]) := by
        simp [eventsPass, collectedEvent, hev, hid, hblock, bind, Except.bind]
      obtain ⟨sys', hrun, hblockers⟩ := ih (list ++ [.event e]) (hrest htouches)
      have hids : ((EventOperator.eventMatch name env value (some e) :: nodes).flatMap
          leafRef).filterMap id = e :: (nodes.flatMap leafRef).filterMap id := rfl
      refine ⟨sys', ?_, fun e' => ?_⟩
      · rw [hpass, hids]
        refine Eq.trans hrun ?_
        simp
      · rw [hblockers, hcount, hids, count_cons_ite]
        omega
    | eventAnd value l r => exact ih list (hrest (Touches.refl sys))
    | eventOr value l r => exact ih list (hrest (Touches.refl sys))

/-! ## The functions -/

section Functions

variable {env : List String} {key : String}

theorem activeEvents_eq (sys : Sys) (root : EventOperator) :
    activeEvents sys root = ((treeForeachFull eventOperatorFilter root).flatMap leafRef).filterMap
      fun ref => ref.bind sys.event? := by
  rw [activeEvents, (activeMatches_eq root).2]

theorem activeMatches_map (h : Grounded sys root) :
    activeMatches true root = (activeEvents sys root).map (fun event => some event.id) ∧
      ∀ event ∈ activeEvents sys root, sys.event? event.id = some event := by
  rw [activeEvents_eq, (activeMatches_eq root).2]
  exact found_refs_eq (AllQueued.of_grounded h)

/-- The traversals of the model see the same events. -/
theorem filteredEvents_eq (fn : SourceFn) (h : Grounded sys root) :
    filteredEvents fn sys root = .ok (activeEvents sys root) := by
  obtain ⟨hrefs, hfound⟩ := activeMatches_map h
  unfold filteredEvents
  rw [filtered_eq, hrefs]
  generalize activeEvents sys root = events at hfound
  induction events with
  | nil => rfl
  | cons event events ih =>
    rw [List.map_cons, List.mapM_cons, ih fun ev hev => hfound ev (List.mem_cons_of_mem _ hev)]
    simp only [hfound event List.mem_cons_self]
    rfl

theorem collectEnvironment_eq (h : Grounded sys root) (env : List String) (key : String) :
    collectEnvironment x sys root env key = eventOperatorEnvironment x sys root env key := by
  have hpairs : ∀ (events : List Event) (s : List String × String),
      events.foldl (fun s event =>
        (environAppend x.getenv s.1 true event.env, appendText s.2 event.name)) s =
      (events.foldl (fun env event => environAppend x.getenv env true event.env) s.1,
        events.foldl (fun evlist event => appendText evlist event.name) s.2) := by
    intro events
    induction events with
    | nil => exact fun _ => rfl
    | cons event events ih => exact fun s => ih _
  have hpass : ∀ s oper, environmentPass x sys s oper = (do
      match ← collectedEvent .eventOperatorEnvironment sys oper with
      | none => .ok s
      | some event =>
        .ok (environAppend x.getenv s.1 true event.env, appendText s.2 event.name)) :=
    fun _ _ => rfl
  have hloop := foldlM_collected hpass (AllQueued.of_grounded h) (env, key ++ "=")
  rw [← activeEvents_eq, hpairs] at hloop
  rw [collectEnvironment, hloop, eventOperatorEnvironment, filteredEvents_eq _ h]
  rfl

theorem collectFds_eq (h : Grounded sys root) (env : List String) (key : String) :
    collectFds x sys root env key = eventOperatorFds x sys root env key := by
  have hpairs : ∀ (events : List Event) (s : List Int × String),
      events.foldl (fun s event => if event.fd ≥ 0 then
        (s.1 ++ [event.fd], appendText s.2 (toString event.fd)) else s) s =
      (s.1 ++ (events.map Event.fd).filter (· ≥ 0),
        ((events.map Event.fd).filter (· ≥ 0)).foldl
          (fun evlist fd => appendText evlist (toString fd)) s.2) := by
    intro events
    induction events with
    | nil => simp
    | cons event events ih =>
      intro s
      rw [List.foldl_cons, ih, List.map_cons]
      by_cases hfd : event.fd ≥ 0
      · rw [if_pos hfd, List.filter_cons_of_pos (by simpa using hfd)]
        simp
      · rw [if_neg hfd, List.filter_cons_of_neg (by simpa using hfd)]
  have hpass : ∀ s oper, fdsPass sys s oper = (do
      match ← collectedEvent .eventOperatorFds sys oper with
      | none => .ok s
      | some event => .ok (if event.fd ≥ 0 then
        (s.1 ++ [event.fd], appendText s.2 (toString event.fd)) else s)) := by
    intro s oper
    unfold fdsPass
    cases collectedEvent .eventOperatorFds sys oper with
    | error f => rfl
    | ok event =>
      cases event with
      | none => rfl
      | some event =>
        show (if event.fd ≥ 0 then _ else _) = Except.ok (if event.fd ≥ 0 then _ else _)
        split <;> rfl
  have hloop := foldlM_collected hpass (AllQueued.of_grounded h) ([], key ++ "=")
  rw [← activeEvents_eq, hpairs, List.nil_append] at hloop
  rw [collectFds, hloop, eventOperatorFds, filteredEvents_eq _ h]
  rfl

/-- The variables of events in place of earlier ones. -/
theorem tableValue_append_events {getenv : String → Option String} (hr : Restorable env)
    (events : List Event) (var : List Char) :
    tableValue (environAppend getenv env true (events.flatMap Event.env)) var =
      mergedValue env events var := by
  have hupdated : Updated getenv env ((events.flatMap Event.env).map fun e => (true, e)) _ :=
    updated_adds hr _
  rw [List.foldl_map] at hupdated
  rw [environAppend, hupdated.values var, settled_replacing, mergedValue, additionsFor,
    List.filter_map, List.map_map, List.getLast?_map]
  · show Option.elim (Option.map _
      ((events.flatMap Event.env).filter fun e => entryKey e = var).getLast?) _ _ = _
    cases hlast : ((events.flatMap Event.env).filter fun e => entryKey e = var).getLast? with
    | none => rfl
    | some e =>
      -- each variable of an event has a value
      obtain ⟨event, -, he⟩ := List.mem_flatMap.mp
        (List.mem_filter.mp (List.mem_of_getLast? hlast)).1
      have hvalue : hasValue e = true := environAllValid_iff.mp event.valid e he
      show newValue getenv e = some (entryValue e)
      unfold newValue
      simp [hvalue]
  · intro add hadd
    obtain ⟨e, he, rfl⟩ := List.mem_map.mp hadd
    obtain ⟨e', -, rfl⟩ := List.mem_map.mp (List.mem_filter.mp he).1
    rfl

/-- A list variable is an entry of its key. -/
theorem keyedList_entry (hkey : hasValue key = false) (texts : List String) :
    ∃ rest, (keyedList key texts).toList = key.toList ++ '=' :: rest ∧
      entryKey (keyedList key texts) = key.toList ∧ hasValue (keyedList key texts) = true ∧
      entryValue (keyedList key texts) = rest := by
  have hform : ∃ rest, (keyedList key texts).toList = key.toList ++ '=' :: rest := by
    induction texts using List.reverseRecOn with
    | nil => exact ⟨[], by simp [keyedList]⟩
    | append_singleton texts text ih =>
      obtain ⟨rest, hrest⟩ := ih
      rw [keyedList_concat]
      split
      · exact ⟨rest ++ text.toList, by rw [hrest]; simp⟩
      · exact ⟨rest ++ ' ' :: text.toList, by rw [hrest]; simp⟩
  obtain ⟨rest, hrest⟩ := hform
  have hnot : '=' ∉ key.toList := by simpa [hasValue] using hkey
  have htake : (key.toList ++ '=' :: rest).takeWhile (· ≠ '=') = key.toList := by
    rw [List.takeWhile_append_of_pos, List.takeWhile_cons_of_neg (by simp), List.append_nil]
    intro c hc
    simpa using fun heq : c = '=' => hnot (heq ▸ hc)
  have hdrop : (key.toList ++ '=' :: rest).dropWhile (· ≠ '=') = '=' :: rest := by
    rw [List.dropWhile_append_of_pos, List.dropWhile_cons_of_neg (by simp)]
    intro c hc
    simpa using fun heq : c = '=' => hnot (heq ▸ hc)
  refine ⟨rest, hrest, ?_, ?_, ?_⟩
  · rw [entryKey, hrest, htake]
  · simp [hasValue, hrest]
  · rw [entryValue, hrest, hdrop]
    rfl

/-- A table after a list variable has been added to it. -/
theorem tableValue_keyedList {getenv : String → Option String} (hr : Restorable env)
    (hkey : hasValue key = false) (texts : List String) (var : List Char) :
    tableValue (environAdd getenv env true (keyedList key texts)) var =
      if key.toList = var then some (entryValue (keyedList key texts)) else tableValue env var := by
  obtain ⟨rest, -, hentry, hvalue, -⟩ := keyedList_entry hkey texts
  rw [tableValue_environAdd hr, hentry]
  split
  · unfold newValue
    simp [hvalue]
  · rfl

theorem entryValue_keyedList_iff (hkey : hasValue key = false) {texts : List String}
    (hne : ∀ text ∈ texts, text ≠ "") :
    entryValue (keyedList key texts) = spaced texts ↔ Separated texts := by
  obtain ⟨rest, hrest, -, -, hvalue⟩ := keyedList_entry hkey texts
  rw [← keyedList_iff key hne, hvalue, hrest]
  simp

end Functions

/-! ## Agreement -/

/-- In every run of a condition whose events are still in the queue, the three functions collect
from the same leaves in the same order, and what they collect is right, exactly when no name of
an event but the last one ends in `=`.  Names of events are never empty, as `event_new`
asserts; a key has no `=` in it, and the table that is added to has one entry for each key. -/
theorem TreeRun.collectors_agree_iff {x : Host} {matchEnv : List String}
    {parsed root : EventOperator} {sys : Sys} {seen : List Event} {env : List String}
    {key fdKey : String} (hparsed : eventOperatorReset parsed = parsed)
    (hrun : TreeRun x matchEnv parsed sys root seen)
    (hqueued : ∀ e ∈ root.refs, (sys.event? e).isSome = true)
    (hnames : ∀ event ∈ sys.events, event.name ≠ "") (henv : Restorable env)
    (hkey : hasValue key = false) (hfdKey : hasValue fdKey = false) :
    CollectsFrom x sys root env key fdKey (activeEvents sys root) ↔
      Separated ((activeEvents sys root).map Event.name) := by
  have hg : Grounded sys root := ⟨(hrun.meaningful hparsed).linked, hqueued⟩
  obtain ⟨hactive, hfound⟩ := activeMatches_map hg
  have hne : ∀ name ∈ (activeEvents sys root).map Event.name, name ≠ "" := by
    intro name hname
    obtain ⟨event, hevent, rfl⟩ := List.mem_map.mp hname
    exact hnames event (List.mem_of_find?_eq_some (hfound event hevent))
  -- what each function returns
  have henvironment : collectEnvironment x sys root env key =
      .ok (environAdd x.getenv
        (environAppend x.getenv env true ((activeEvents sys root).flatMap Event.env)) true
        (keyedList key ((activeEvents sys root).map Event.name))) := by
    rw [collectEnvironment_eq hg, eventOperatorEnvironment, filteredEvents_eq _ hg,
      List.flatMap_def, ← foldl_environAppend, keyedList, List.foldl_map]
    rfl
  have hfds : collectFds x sys root env fdKey =
      .ok (((activeEvents sys root).map Event.fd).filter (· ≥ 0),
        if (((activeEvents sys root).map Event.fd).filter (· ≥ 0)).isEmpty then env
        else environAdd x.getenv env true (keyedList fdKey
          ((((activeEvents sys root).map Event.fd).filter (· ≥ 0)).map toString))) := by
    rw [collectFds_eq hg, eventOperatorFds, filteredEvents_eq _ hg, keyedList, List.foldl_map]
    rfl
  have happended : Restorable
      (environAppend x.getenv env true ((activeEvents sys root).flatMap Event.env)) :=
    henv.append x.getenv true _
  constructor
  · intro h
    obtain ⟨env', hcollect, hlist, -⟩ := h.environment
    rw [henvironment, Except.ok.injEq] at hcollect
    rw [← hcollect, tableValue_keyedList happended hkey, if_pos rfl, Option.some.injEq] at hlist
    exact (entryValue_keyedList_iff hkey hne).mp hlist
  · intro hsep
    refine ⟨hactive, hfound, ⟨_, henvironment, ?_, ?_⟩, ⟨_, _, hfds, rfl, ?_, ?_⟩, ?_⟩
    · rw [tableValue_keyedList happended hkey, if_pos rfl, (entryValue_keyedList_iff hkey hne).mpr hsep]
    · intro var hvar
      rw [tableValue_keyedList happended hkey, if_neg (Ne.symm hvar), tableValue_append_events henv]
    · intro hsome
      obtain ⟨hsepFds, hneFds⟩ := separated_numbers ((activeEvents sys root).map Event.fd)
      rw [if_neg (by simpa using hsome), tableValue_keyedList henv hfdKey, if_pos rfl,
        (entryValue_keyedList_iff hfdKey hneFds).mpr hsepFds]
    · intro var hvar
      split
      · rfl
      · rename_i hsome
        rcases hvar with hnone | hvar
        · exact absurd (by rw [hnone]; rfl) hsome
        · rw [tableValue_keyedList henv hfdKey, if_neg (Ne.symm hvar)]
    · obtain ⟨sys', hblocks, hcount⟩ := foldlM_eventsPass [] (AllQueued.of_grounded hg)
      have hids : ((treeForeachFull eventOperatorFilter root).flatMap leafRef).filterMap id =
          (activeEvents sys root).map Event.id := by
        rw [← (activeMatches_eq root).2, hactive, List.filterMap_map]
        simp
      rw [hids] at hblocks hcount
      exact ⟨sys', _, hblocks, by simp, hcount⟩

/-- An event with a number as its address. -/
def plainEvent (id : EventId) (name : String) (fd : Int) : Event :=
  { id, name, env := [], fd, progress := .pending, failed := false, blockers := 0, blocking := [],
    valid := environAllValid_nil }

/-- The condition `first and second`. -/
def bothNames (first second : String) : EventOperator :=
  .eventAnd false (.eventMatch first [] false none) (.eventMatch second [] false none)

/-- A condition on two events, both of which have happened. -/
theorem TreeRun.collectors_agree_iff_both :
    ∃ sys root seen, TreeRun plainHost [] (bothNames "a" "b") sys root seen ∧
      (activeEvents sys root).map Event.name = ["a", "b"] ∧
      (CollectsFrom plainHost sys root [] "UPSTART_EVENTS" "UPSTART_FDS" (activeEvents sys root) ↔
        Separated ((activeEvents sys root).map Event.name)) := by
  have h₀ : TreeRun plainHost [] (bothNames "a" "b")
      ⟨[plainEvent 1 "a" (-1), plainEvent 2 "b" 3], 2, 0, []⟩ (bothNames "a" "b") [] := .parse _
  have hfirst : handleOperator plainHost ⟨[plainEvent 1 "a" (-1), plainEvent 2 "b" 3], 2, 0, []⟩
      (bothNames "a" "b") (plainEvent 1 "a" (-1)) [] = .ok (_, _, _) := rfl
  have h₁ := h₀.handle hfirst
  have h₂ := h₁.handle
    (show handleOperator plainHost _ _ (plainEvent 2 "b" 3) [] = .ok (_, _, _) from rfl)
  exact ⟨_, _, _, h₂, rfl, TreeRun.collectors_agree_iff rfl h₂ (by decide) (by decide) (by decide)
    (by decide) (by decide)⟩

/-- An event whose name ends in `=` is not separated from the next one. -/
theorem equalsName_not_separated :
    ∃ sys root seen, TreeRun plainHost [] (bothNames "a=" "b") sys root seen ∧
      (∀ e ∈ root.refs, (sys.event? e).isSome = true) ∧
      collectEnvironment plainHost sys root [] "UPSTART_EVENTS" = .ok ["UPSTART_EVENTS=a=b"] ∧
      ¬ CollectsFrom plainHost sys root [] "UPSTART_EVENTS" "UPSTART_FDS"
        (activeEvents sys root) := by
  have h₀ : TreeRun plainHost [] (bothNames "a=" "b")
      ⟨[plainEvent 1 "a=" (-1), plainEvent 2 "b" (-1)], 2, 0, []⟩ (bothNames "a=" "b") [] := .parse _
  have hfirst : handleOperator plainHost ⟨[plainEvent 1 "a=" (-1), plainEvent 2 "b" (-1)], 2, 0, []⟩
      (bothNames "a=" "b") (plainEvent 1 "a=" (-1)) [] = .ok (_, _, _) := rfl
  have h₁ := h₀.handle hfirst
  have h₂ := h₁.handle
    (show handleOperator plainHost _ _ (plainEvent 2 "b" (-1)) [] = .ok (_, _, _) from rfl)
  refine ⟨_, _, _, h₂, by decide, rfl, fun h => ?_⟩
  obtain ⟨env', hcollect, hlist, -⟩ := h.environment
  cases hcollect
  exact absurd hlist (by decide)

end Startup
