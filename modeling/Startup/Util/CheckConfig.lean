import Startup.Util.Conditions

/-!
# `initctl check-config` (`util/initctl.c`)

The conditions of a job are kept as lists of texts in reverse Polish form.  `eval_expr_tree`
makes a tree with truth values of them, and `check_condition` looks for an expression in error.

* `checkConfig`: a condition from its tree in init to what is reported, without result where an
  assertion fails.
* `holds`: what the condition is worth, by the events and jobs that are known.
* `checkConfig_iff`: what is reported.
* `checkConfig_marker`: an event that is called as an operator is ends in a failed assertion.
-/

namespace Startup.Initctl

open EventOperator Lib.Postfix

/-! ## What is known -/

/-- `CheckConfigData`, with the options of the command. -/
structure CheckConfigData where
  /-- the names in `job_class_hash` -/
  jobClasses : List String
  /-- the events that jobs emit, which may be globs -/
  events : List String
  ignoredEvents : List String
  /-- `check_config_warn` -/
  warn : Bool
  /-- `user_mode` -/
  userMode : Bool

variable (x : Host) (data : CheckConfigData)

/-- `IS_INIT_EVENT`. -/
def isInitEvent (event : String) : Bool :=
  event == "startup" || event == "debug" || event == "control-alt-delete" ||
    event == "keyboard-request" || event == "power-status-changed" ||
    (event == "session-end" && data.userMode) || isJobEvent event

/-- `allow_job`.  What starts with `$` is a variable. -/
def allowJob (job : String) : Bool :=
  data.jobClasses.contains job || job.toList.head? == some '$'

/-- `allow_event`. -/
def allowEvent (event : String) : Bool :=
  data.events.any (x.fnmatch · event) || isInitEvent data event ||
    data.ignoredEvents.contains event

/-! ## `eval_expr_tree` -/

/-- `ExprNode`. -/
inductive ExprNode where
  | operand (expr : String) (jobInError eventInError : Option String)
  | operator (expr : String) (value : Bool) (left right : ExprNode)
  deriving DecidableEq, Repr

namespace ExprNode

/-- The `expr` field. -/
def expr : ExprNode → String
  | operand expr _ _ => expr
  | operator expr _ _ _ => expr

/-- The `value` field. -/
def value : ExprNode → Bool
  | operand _ jobInError eventInError => jobInError.isNone && eventInError.isNone
  | operator _ value _ _ => value

/-- `NIH_TREE_FOREACH_PRE`. -/
def preOrder : ExprNode → List ExprNode
  | operand expr job event => [operand expr job event]
  | operator expr value l r => operator expr value l r :: (l.preOrder ++ r.preOrder)

/-- `NIH_TREE_FOREACH_POST`. -/
def postOrder : ExprNode → List ExprNode
  | operand expr job event => [operand expr job event]
  | operator expr value l r => l.postOrder ++ r.postOrder ++ [operator expr value l r]

/-- The nodes that `check_condition` looks at: those below the root pass `tree_filter` as
operators. -/
def visited (root : ExprNode) : List ExprNode :=
  root :: root.preOrder.tail.filter fun node => isOperator node.expr

end ExprNode

/-- An operand is split at its first space. -/
def evalOperand (expr : List Char) : ExprNode :=
  let event := String.ofList (expr.takeWhile (· ≠ ' '))
  let jobInError :=
    match expr.dropWhile (· ≠ ' ') with
    | [] => none
    | _ :: job => if allowJob data (String.ofList job) then none else some (String.ofList job)
  .operand event jobInError (if allowEvent x data event then none else some event)

/-- An operator has what it takes off the stack first on its left. -/
def evalOperator (expr : String) (first second : ExprNode) : ExprNode :=
  .operator expr
    (if isOpAnd expr || data.warn then first.value && second.value
      else first.value || second.value) first second

/-- `eval_expr_tree`, where the stack must not be empty for an operator. -/
def evalExprTree (stack : List ExprNode) (expr : List Char) : Option (List ExprNode) :=
  if isOperator (String.ofList expr) then
    match stack with
    | first :: second :: stack =>
      some (evalOperator data (String.ofList expr) first second :: stack)
    | _ => none
  else some (evalOperand x data expr :: stack)

/-! ## `check_condition` -/

/-- The errors that are counted, what is displayed, and `job_class_displayed`. -/
structure CheckReport where
  errors : Nat
  messages : List String
  jobClassDisplayed : Bool
  deriving DecidableEq, Repr

/-- `display_check_errors`. -/
def displayCheckErrors (condition : String) (node : ExprNode) : List String :=
  node.postOrder.flatMap fun
    | .operand _ job event =>
      (event.map fun event => "  " ++ condition ++ ": unknown event " ++ event).toList ++
        (job.map fun job => "  " ++ condition ++ ": unknown job " ++ job).toList
    | .operator .. => []

/-- The nodes are looked at until one is in error. -/
def checkNodes (jobClass condition : String) (jobClassDisplayed : Bool) (nodes : List ExprNode) :
    CheckReport :=
  match nodes.find? (!·.value) with
  | some e =>
    ⟨1, (if jobClassDisplayed then [] else [jobClass]) ++ displayCheckErrors condition e, true⟩
  | none => ⟨0, [], jobClassDisplayed⟩

/-- `check_condition`. -/
def checkCondition (jobClass condition : String) (conditionList : List (List Char))
    (jobClassDisplayed : Bool) : Option CheckReport :=
  if conditionList = [] then some ⟨0, [], jobClassDisplayed⟩
  else
    match conditionList.foldlM (evalExprTree x data) [] with
    | some (root :: _) => some (checkNodes jobClass condition jobClassDisplayed root.visited)
    | _ => none

/-- `job_class_parse_events` takes the texts off its stack and puts each before those that it has
put into the list of the job. -/
def unstitch (stack : List (List Char)) : List (List Char) :=
  stack.foldl (fun list text => text :: list) []

/-- The arrays of a condition are read, and what they say is checked. -/
def checkConfig (jobClass condition : String) (variants : List Variant)
    (jobClassDisplayed : Bool) : Option CheckReport := do
  let stack ← jobClassParseEvents .checkConfig variants
  checkCondition x data jobClass condition (unstitch stack) jobClassDisplayed

/-! ## What a condition is worth -/

/-- The job that the arguments of a job event name. -/
def namedJob (variant : Variant) : Option String :=
  if isJobEvent variant.token then jobNameFrom 0 variant.args else none

/-- The event is allowed, and so is the job that it names, if any. -/
def eventHolds (variant : Variant) : Bool :=
  allowEvent x data variant.token && (namedJob variant).all (allowJob data)

/-- The `and` and `or` of what the events are worth. -/
def holds : EventOperator → Bool
  | eventMatch name env _ _ => eventHolds x data ⟨name, env⟩
  | eventAnd _ l r => holds l && holds r
  | eventOr _ l r => holds l || holds r

/-- The `and` and `or` expressions in a condition. -/
def operatorsOf : EventOperator → List EventOperator
  | eventMatch .. => []
  | eventAnd value l r => eventAnd value l r :: (operatorsOf l ++ operatorsOf r)
  | eventOr value l r => eventOr value l r :: (operatorsOf l ++ operatorsOf r)

/-- The name is not that of an operator and has no space in it, and no empty argument stands in
front of the one that names the job. -/
structure Variant.Plain (variant : Variant) : Prop where
  not_operator : isOperator variant.token = false
  no_space : ' ' ∉ variant.token.toList
  named : isJobEvent variant.token = true →
    jobNameFrom 0 (variant.args.takeWhile (· ≠ "")) = jobNameFrom 0 variant.args

variable {x data} {variant : Variant} {tree : EventOperator} {variants : List Variant}

/-! ## The texts -/

/-- The text of an array in the list of the job. -/
def checkElement (variant : Variant) : List Char :=
  if isOperator variant.token then variant.token.toList else eventElement .checkConfig variant

/-- The list of the job has the texts in the order of the arrays. -/
theorem jobClassParseEvents_checkConfig (variants : List Variant) :
    jobClassParseEvents .checkConfig variants = some (variants.map checkElement).reverse := by
  have hrun : ∀ stack, variants.foldlM (parseStep .checkConfig) stack =
      some ((variants.map checkElement).reverse ++ stack) := by
    induction variants with
    | nil => exact fun stack => rfl
    | cons variant variants ih =>
      intro stack
      have hstep : parseStep .checkConfig stack variant = some (checkElement variant :: stack) := by
        unfold parseStep checkElement
        split <;> rfl
      rw [List.foldlM_cons, hstep]
      show variants.foldlM (parseStep .checkConfig) _ = _
      rw [ih, List.map_cons, List.reverse_cons, List.append_assoc]
      rfl
  rw [jobClassParseEvents, hrun, List.append_nil]

theorem unstitch_eq (stack : List (List Char)) : unstitch stack = stack.reverse :=
  List.foldl_flip_cons_eq_append'.trans (List.append_nil _)

theorem not_isOperator {token : String} (h : ' ' ∈ token.toList) : isOperator token = false := by
  rw [isOperator, isOpAnd, isOpOr, Bool.or_eq_false_iff, beq_eq_false_iff_ne, beq_eq_false_iff_ne]
  constructor
  · intro htoken
    rw [htoken] at h
    exact absurd h (by decide)
  · intro htoken
    rw [htoken] at h
    exact absurd h (by decide)

/-- A text is an operator if the array is taken for one. -/
theorem isOperator_checkElement (variant : Variant) :
    isOperator (String.ofList (checkElement variant)) = isOperator variant.token := by
  unfold checkElement
  cases hmarker : isOperator variant.token with
  | true => rw [if_pos rfl, String.ofList_toList, hmarker]
  | false =>
    rw [if_neg Bool.false_ne_true, eventElement]
    split
    · apply not_isOperator
      rw [String.toList_ofList]
      exact List.mem_append_right _ List.mem_cons_self
    · rw [String.ofList_toList, hmarker]

/-! ## The tree of a condition -/

/-- The node of an event. -/
def eventNode (x : Host) (data : CheckConfigData) (variant : Variant) : ExprNode :=
  evalOperand x data (eventElement .checkConfig variant)

/-- The node of an operator. -/
def operatorNode (data : CheckConfigData) (isAnd : Bool) (left right : ExprNode) : ExprNode :=
  evalOperator data (if isAnd then "/AND" else "/OR") right left

/-- The node of a condition. -/
def conditionNode (x : Host) (data : CheckConfigData) (tree : EventOperator) : ExprNode :=
  (conditionTree tree).fold (eventNode x data) (operatorNode data)

theorem evalExprTree_checkElement (stack : List ExprNode) (variant : Variant) :
    evalExprTree x data stack (checkElement variant) =
      Lib.Postfix.step (eventNode x data) (operatorNode data) stack variant.toToken := by
  unfold evalExprTree
  rw [isOperator_checkElement, Variant.toToken]
  cases hmarker : isOperator variant.token with
  | false =>
    rw [if_neg Bool.false_ne_true, if_neg Bool.false_ne_true, checkElement, hmarker]
    rfl
  | true =>
    have helement : String.ofList (checkElement variant) = variant.token := by
      rw [checkElement, hmarker, if_pos rfl, String.ofList_toList]
    have htoken : variant.token = if isOpAnd variant.token then "/AND" else "/OR" := by
      rw [isOperator, Bool.or_eq_true, isOpAnd, isOpOr, beq_iff_eq, beq_iff_eq] at hmarker
      rcases hmarker with htoken | htoken <;> rw [htoken] <;> rfl
    cases stack with
    | nil => rfl
    | cons first stack =>
      cases stack with
      | nil => rfl
      | cons second stack =>
        show some (evalOperator data (String.ofList (checkElement variant)) first second :: stack) =
          some (evalOperator data (if isOpAnd variant.token then "/AND" else "/OR") first second ::
            stack)
        rw [helement, ← htoken]

/-- The texts of arrays are evaluated as the arrays are read. -/
theorem foldlM_evalExprTree (variants : List Variant) :
    (variants.map checkElement).foldlM (evalExprTree x data) [] =
      run (eventNode x data) (operatorNode data) [] (variants.map Variant.toToken) := by
  rw [run, List.foldlM_map, List.foldlM_map]
  congr 1
  funext stack variant
  exact evalExprTree_checkElement stack variant

/-- `check_condition` is given the texts of the arrays. -/
theorem checkConfig_arrays (jobClass condition : String) (variants : List Variant)
    (displayed : Bool) :
    checkConfig x data jobClass condition variants displayed =
      checkCondition x data jobClass condition (variants.map checkElement) displayed := by
  rw [checkConfig, jobClassParseEvents_checkConfig]
  show checkCondition x data jobClass condition (unstitch _) displayed = _
  rw [unstitch_eq, List.reverse_reverse]

/-- The nodes of the condition are looked at. -/
theorem checkConfig_eq (hnames : ∀ variant ∈ eventArrays tree, isOperator variant.token = false)
    (jobClass condition : String) (displayed : Bool) :
    checkConfig x data jobClass condition (jobClassGetStartOn (some tree)) displayed =
      some (checkNodes jobClass condition displayed (conditionNode x data tree).visited) := by
  have hrun := run_tokens (eventNode x data) (operatorNode data) (conditionTree tree) []
  rw [← conditionArrays_tokens hnames, ← foldlM_evalExprTree] at hrun
  rw [checkConfig_arrays, jobClassGetStartOn, checkCondition,
    if_neg (List.map_eq_nil_iff.not.mpr (conditionArrays_ne_nil tree)), hrun]
  rfl

/-- An event that is called as an operator is leaves an operator without operands. -/
theorem checkConfig_marker (hmem : variant ∈ eventArrays tree)
    (hmarker : isOperator variant.token = true) (jobClass condition : String)
    (displayed : Bool) :
    checkConfig x data jobClass condition (jobClassGetStartOn (some tree)) displayed = none := by
  have hrun := run_marker (eventNode x data) (operatorNode data) hmem hmarker
  rw [← foldlM_evalExprTree] at hrun
  rw [checkConfig_arrays, jobClassGetStartOn, checkCondition,
    if_neg (List.map_eq_nil_iff.not.mpr (conditionArrays_ne_nil tree)), hrun]

/-! ## The values of the nodes -/

/-- What a node says of a condition: with `--warn` whether all events hold. -/
def judged (x : Host) (data : CheckConfigData) (tree : EventOperator) : Bool :=
  if data.warn then (eventArrays tree).all (eventHolds x data) else holds x data tree

/-- The text of a plain event is split at the space behind its name. -/
theorem Variant.Plain.eventNode_eq (h : variant.Plain) :
    eventNode x data variant = .operand variant.token
      ((namedJob variant).filter (!allowJob data ·))
      (if allowEvent x data variant.token then none else some variant.token) := by
  have hjob : (if isJobEvent variant.token then
      jobNameFrom 0 (variant.args.takeWhile (· ≠ "")) else none) = namedJob variant := by
    unfold namedJob
    split_ifs with hevent
    · exact h.named hevent
    · rfl
  have htoken : ∀ c ∈ variant.token.toList, (decide (c ≠ ' ')) = true := by
    intro c hc
    exact decide_eq_true fun hspace => h.no_space (hspace ▸ hc)
  unfold eventNode eventElement
  dsimp only
  rw [hjob]
  cases namedJob variant with
  | none =>
    have htake : variant.token.toList.takeWhile (· ≠ ' ') = variant.token.toList :=
      List.takeWhile_eq_self_iff.mpr htoken
    have hdrop : variant.token.toList.dropWhile (· ≠ ' ') = [] :=
      List.dropWhile_eq_nil_iff.mpr htoken
    show evalOperand x data variant.token.toList = _
    unfold evalOperand
    rw [htake, hdrop, String.ofList_toList]
    rfl
  | some job =>
    have htake : (variant.token.toList ++ ' ' :: job.toList).takeWhile (· ≠ ' ') =
        variant.token.toList := by
      rw [List.takeWhile_append_of_pos htoken]
      simp
    have hdrop : (variant.token.toList ++ ' ' :: job.toList).dropWhile (· ≠ ' ') =
        ' ' :: job.toList := by
      rw [List.dropWhile_append_of_pos htoken]
      simp
    show evalOperand x data (variant.token.toList ++ ' ' :: job.toList) = _
    unfold evalOperand
    rw [htake, hdrop, String.ofList_toList]
    dsimp only
    rw [String.ofList_toList]
    cases hallow : allowJob data job <;> simp [Option.filter, hallow]

theorem Variant.Plain.value_eventNode (h : variant.Plain) :
    (eventNode x data variant).value = eventHolds x data variant := by
  rw [h.eventNode_eq, ExprNode.value, eventHolds, Bool.and_comm]
  congr 1
  · cases allowEvent x data variant.token <;> rfl
  · cases namedJob variant with
    | none => rfl
    | some job => cases hallow : allowJob data job <;> simp [Option.filter, hallow]

/-- The operands that are taken off the stack have changed places, and their values have too. -/
theorem value_conditionNode (x : Host) (data : CheckConfigData)
    (h : ∀ variant ∈ eventArrays tree, variant.Plain) :
    (conditionNode x data tree).value = judged x data tree := by
  induction tree with
  | eventMatch name env value event =>
    have hplain := h ⟨name, env⟩ (List.mem_singleton_self _)
    show (eventNode x data ⟨name, env⟩).value = _
    rw [hplain.value_eventNode, judged, eventArrays, holds]
    simp
  | eventAnd value l r ihl ihr =>
    have hl := ihl fun variant hvariant => h variant (List.mem_append_left _ hvariant)
    have hr := ihr fun variant hvariant => h variant (List.mem_append_right _ hvariant)
    show ((conditionNode x data r).value && (conditionNode x data l).value) = _
    rw [hl, hr, judged, judged, judged, eventArrays, List.all_append, holds, Bool.and_comm]
    split <;> rfl
  | eventOr value l r ihl ihr =>
    have hl := ihl fun variant hvariant => h variant (List.mem_append_left _ hvariant)
    have hr := ihr fun variant hvariant => h variant (List.mem_append_right _ hvariant)
    show (if data.warn then (conditionNode x data r).value && (conditionNode x data l).value
      else (conditionNode x data r).value || (conditionNode x data l).value) = _
    rw [hl, hr, judged, judged, judged, eventArrays, List.all_append, holds, Bool.and_comm,
      Bool.or_comm]
    split <;> rfl

/-- The nodes of an operator and of its operands. -/
theorem exists_operator {p : ExprNode → Prop} (expr : String) (value : Bool)
    (left right : ExprNode) :
    (∃ node ∈ (ExprNode.operator expr value left right).preOrder, p node) ↔
      p (.operator expr value left right) ∨
        (∃ node ∈ right.preOrder, p node) ∨ ∃ node ∈ left.preOrder, p node := by
  rw [or_comm (a := ∃ node ∈ right.preOrder, p node)]
  simp only [ExprNode.preOrder, List.mem_cons, List.mem_append, or_and_right, exists_or,
    exists_eq_left]

/-- The expressions of an operator and of its operands. -/
theorem exists_expression {p : EventOperator → Prop} (root : EventOperator)
    (l r : List EventOperator) :
    (∃ expr ∈ root :: (l ++ r), p expr) ↔
      p root ∨ (∃ expr ∈ l, p expr) ∨ ∃ expr ∈ r, p expr := by
  simp only [List.mem_cons, List.mem_append, or_and_right, exists_or, exists_eq_left]

/-- The operators that pass the filter are the `and` and `or` expressions. -/
theorem exists_operatorNode (x : Host) (data : CheckConfigData)
    (h : ∀ variant ∈ eventArrays tree, variant.Plain) :
    (∃ node ∈ (conditionNode x data tree).preOrder,
        isOperator node.expr = true ∧ node.value = false) ↔
      ∃ expr ∈ operatorsOf tree, judged x data expr = false := by
  induction tree with
  | eventMatch name env value event =>
    have hplain := h ⟨name, env⟩ (List.mem_singleton_self _)
    have hnode : (conditionNode x data (eventMatch name env value event)).preOrder =
        [eventNode x data ⟨name, env⟩] := rfl
    rw [hnode, hplain.eventNode_eq]
    simp [ExprNode.expr, hplain.not_operator, operatorsOf]
  | eventAnd value l r ihl ihr =>
    have hroot := value_conditionNode x data h
    rw [operatorsOf, exists_expression, ← hroot,
      ← ihl fun variant hvariant => h variant (List.mem_append_left _ hvariant),
      ← ihr fun variant hvariant => h variant (List.mem_append_right _ hvariant)]
    refine (exists_operator ..).trans (or_congr_left ?_)
    exact and_iff_right rfl
  | eventOr value l r ihl ihr =>
    have hroot := value_conditionNode x data h
    rw [operatorsOf, exists_expression, ← hroot,
      ← ihl fun variant hvariant => h variant (List.mem_append_left _ hvariant),
      ← ihr fun variant hvariant => h variant (List.mem_append_right _ hvariant)]
    refine (exists_operator ..).trans (or_congr_left ?_)
    exact and_iff_right rfl

/-- The nodes that are looked at are the condition and its `and` and `or` expressions. -/
theorem exists_visited (x : Host) (data : CheckConfigData)
    (h : ∀ variant ∈ eventArrays tree, variant.Plain) :
    (∃ node ∈ (conditionNode x data tree).visited, node.value = false) ↔
      ∃ expr ∈ tree :: operatorsOf tree, judged x data expr = false := by
  have hroot := value_conditionNode x data h
  have hbelow := exists_operatorNode x data h
  have hpre : ∃ below,
      (conditionNode x data tree).preOrder = conditionNode x data tree :: below := by
    cases conditionNode x data tree with
    | operand expr job event => exact ⟨_, rfl⟩
    | operator expr value l r => exact ⟨_, rfl⟩
  obtain ⟨below, hpre⟩ := hpre
  rw [hpre] at hbelow
  simp only [ExprNode.visited, hpre, List.tail_cons, List.mem_cons, List.mem_filter,
    or_and_right, exists_or, exists_eq_left, and_assoc] at hbelow ⊢
  rw [hroot] at hbelow ⊢
  rw [← hbelow]
  tauto

theorem checkNodes_errors (jobClass condition : String) (displayed : Bool)
    (nodes : List ExprNode) :
    (checkNodes jobClass condition displayed nodes).errors ≠ 0 ↔
      ∃ node ∈ nodes, node.value = false := by
  unfold checkNodes
  cases hfind : nodes.find? (!·.value) with
  | none =>
    rw [List.find?_eq_none] at hfind
    simpa using hfind
  | some e =>
    have hmem := List.mem_of_find?_eq_some hfind
    have hvalue := List.find?_some hfind
    refine iff_of_true Nat.one_ne_zero ⟨e, hmem, ?_⟩
    simpa using hvalue

/-- The events of an expression are events of the condition. -/
theorem eventArrays_operatorsOf {expr : EventOperator} (h : expr ∈ operatorsOf tree) :
    ∀ variant ∈ eventArrays expr, variant ∈ eventArrays tree := by
  intro variant hvariant
  induction tree with
  | eventMatch => cases h
  | eventAnd value l r ihl ihr =>
    rw [operatorsOf, List.mem_cons, List.mem_append] at h
    rcases h with rfl | h | h
    · exact hvariant
    · exact List.mem_append_left _ (ihl h)
    · exact List.mem_append_right _ (ihr h)
  | eventOr value l r ihl ihr =>
    rw [operatorsOf, List.mem_cons, List.mem_append] at h
    rcases h with rfl | h | h
    · exact hvariant
    · exact List.mem_append_left _ (ihl h)
    · exact List.mem_append_right _ (ihr h)

/-- What is reported of a condition whose events are plain: an `and` or `or` expression in it that
cannot come true, or the condition itself; with `--warn` an event. -/
theorem checkConfig_iff (x : Host) (data : CheckConfigData) (jobClass condition : String)
    (displayed : Bool) (tree : EventOperator)
    (hplain : ∀ variant ∈ eventArrays tree, variant.Plain) :
    ∃ report, checkConfig x data jobClass condition (jobClassGetStartOn (some tree)) displayed =
        some report ∧
      (report.errors ≠ 0 ↔
        if data.warn then ∃ variant ∈ eventArrays tree, eventHolds x data variant = false
        else ∃ expr ∈ tree :: operatorsOf tree, holds x data expr = false) := by
  refine ⟨_, checkConfig_eq (fun variant h => (hplain variant h).not_operator) .., ?_⟩
  rw [checkNodes_errors, exists_visited x data hplain]
  cases hwarn : data.warn with
  | false => simp [judged, hwarn]
  | true =>
    have hjudged : ∀ expr, judged x data expr = false ↔
        ∃ variant ∈ eventArrays expr, eventHolds x data variant = false := by
      intro expr
      rw [judged, hwarn, if_pos rfl, List.all_eq_false]
      simp
    rw [if_pos rfl]
    constructor
    · intro h
      obtain ⟨expr, hmem, hexpr⟩ := h
      obtain ⟨variant, hvariant, hfalse⟩ := (hjudged expr).mp hexpr
      rcases List.mem_cons.mp hmem with rfl | hmem
      · exact ⟨variant, hvariant, hfalse⟩
      · exact ⟨variant, eventArrays_operatorsOf hmem variant hvariant, hfalse⟩
    · intro h
      exact ⟨tree, List.mem_cons_self, (hjudged tree).mpr h⟩

/-! ## An alternative that cannot come true -/

/-- `starting mountall or (runlevel [016] and (stopped gdm or stopped kdm))` -/
def plymouthStartOn : EventOperator :=
  .eventOr false (.eventMatch "starting" ["mountall"] false none)
    (.eventAnd false (.eventMatch "runlevel" ["[016]"] false none)
      (.eventOr false (.eventMatch "stopped" ["gdm"] false none)
        (.eventMatch "stopped" ["kdm"] false none)))

/-- The display managers are not installed. -/
def plymouthData : CheckConfigData where
  jobClasses := ["plymouth", "mountall"]
  events := []
  ignoredEvents := ["runlevel"]
  warn := false
  userMode := false

theorem plymouthStartOn_plain : ∀ variant ∈ eventArrays plymouthStartOn, variant.Plain := by
  intro variant hvariant
  have hcases : variant = ⟨"starting", ["mountall"]⟩ ∨ variant = ⟨"runlevel", ["[016]"]⟩ ∨
      variant = ⟨"stopped", ["gdm"]⟩ ∨ variant = ⟨"stopped", ["kdm"]⟩ := by
    simpa [eventArrays, plymouthStartOn] using hvariant
  rcases hcases with rfl | rfl | rfl | rfl
  all_goals exact ⟨by decide, by decide, fun _ => by decide⟩

/-- The condition can come true, but an expression in it cannot. -/
theorem satisfiable_reported :
    holds plainHost plymouthData plymouthStartOn = true ∧
      checkConfig plainHost plymouthData "plymouth" "start on"
        (jobClassGetStartOn (some plymouthStartOn)) false =
      some ⟨1, ["plymouth", "  start on: unknown job kdm", "  start on: unknown job gdm"], true⟩ := by
  decide +kernel

theorem checkConfig_iff_plymouth :
    ∃ report, checkConfig plainHost plymouthData "plymouth" "start on"
        (jobClassGetStartOn (some plymouthStartOn)) false = some report ∧
      (report.errors ≠ 0 ↔
        ∃ expr ∈ plymouthStartOn :: operatorsOf plymouthStartOn,
          holds plainHost plymouthData expr = false) :=
  checkConfig_iff plainHost plymouthData "plymouth" "start on" false plymouthStartOn
    plymouthStartOn_plain

end Startup.Initctl
