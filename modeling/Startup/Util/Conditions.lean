import Startup.Event.Collapse
import Startup.Lib.Postfix
import Mathlib.Data.List.TakeWhile

/-!
# Conditions on their way to `initctl` (`init/job_class.c`, `util/initctl.c`)

A condition is sent as arrays of strings in reverse Polish form: an array for each event, and an
array for each operator with the one string `/AND` or `/OR`.

* `jobClassGetStartOn`, `jobClassGetStopOn`: the arrays.
* `jobClassParseEvents`: the stack that `initctl` makes of them for its commands `show-config`
  and `check-config`.
* `conditionArrays_tokens`: the arrays are the postfix notation of the condition, if no event is
  called as an operator is.
* `run_marker`: otherwise there are too many operators to be read.
-/

namespace Startup.Initctl

open EventOperator Lib.Postfix

/-! ## The arrays -/

/-- An array: its first string, and those behind it. -/
structure Variant where
  token : String
  args : List String
  deriving DecidableEq, Repr

/-- The array of one node. -/
def conditionArray : EventOperator → Variant
  | eventMatch name env _ _ => ⟨name, env⟩
  | eventAnd .. => ⟨"/AND", []⟩
  | eventOr .. => ⟨"/OR", []⟩

/-- The arrays of the nodes in post-order. -/
def conditionArrays (condition : Option EventOperator) : List Variant :=
  (condition.elim [] postOrder).map conditionArray

/-- `job_class_get_start_on`. -/
def jobClassGetStartOn (startOn : Option EventOperator) : List Variant := conditionArrays startOn

/-- `job_class_get_stop_on`. -/
def jobClassGetStopOn (stopOn : Option EventOperator) : List Variant := conditionArrays stopOn

/-! ## `job_class_parse_events` -/

/-- The command of `initctl`, by `check_config_mode`. -/
inductive Mode where
  | showConfig
  | checkConfig
  deriving DecidableEq, Repr

/-- `IS_OP_AND`. -/
def isOpAnd (token : String) : Bool := token == "/AND"

/-- `IS_OP_OR`. -/
def isOpOr (token : String) : Bool := token == "/OR"

/-- `IS_OPERATOR`. -/
def isOperator (token : String) : Bool := isOpAnd token || isOpOr token

/-- `IS_JOB_EVENT`. -/
def isJobEvent (token : String) : Bool :=
  token == "starting" || token == "started" || token == "stopping" || token == "stopped"

/-- `GET_JOB_NAME`: the job that the argument at an index names. -/
def getJobName (index : Nat) (token : String) : Option String :=
  if "JOB=".toList.isPrefixOf token.toList then some (String.ofList (token.toList.drop 4))
  else if index = 0 ∧ '=' ∉ token.toList then some token
  else none

/-- The first job that one of the arguments names. -/
def jobNameFrom : Nat → List String → Option String
  | _, [] => none
  | index, arg :: args =>
    match getJobName index arg with
    | some name => some name
    | none => jobNameFrom (index + 1) args

/-- What an event is on the stack.  The loop over the arguments ends at an empty one.  For
`check-config` there is only the job that a job event names. -/
def eventElement (mode : Mode) (variant : Variant) : List Char :=
  let args := variant.args.takeWhile (· ≠ "")
  match mode with
  | .showConfig => variant.token.toList ++ args.flatMap fun arg => ' ' :: arg.toList
  | .checkConfig =>
    match if isJobEvent variant.token then jobNameFrom 0 args else none with
    | some name => variant.token.toList ++ ' ' :: name.toList
    | none => variant.token.toList

/-- `(%s %s %s)` -/
def bracket (isAnd : Bool) (second first : List Char) : List Char :=
  '(' :: (second ++ ' ' :: (if isAnd then "and" else "or").toList ++ ' ' :: first ++ [')'])

/-- One array.  `STACK_POP` has no result where the stack is empty: it takes the head of the list
for an entry then, and what is read as its string lies outside. -/
def parseStep (mode : Mode) (stack : List (List Char)) (variant : Variant) :
    Option (List (List Char)) :=
  if isOperator variant.token then
    match mode, stack with
    | .checkConfig, stack => some (variant.token.toList :: stack)
    | .showConfig, first :: second :: stack =>
      some (bracket (isOpAnd variant.token) second first :: stack)
    | .showConfig, _ => none
  else some (eventElement mode variant :: stack)

/-- The loop of `job_class_parse_events`: the stack behind the last array. -/
def jobClassParseEvents (mode : Mode) (variants : List Variant) : Option (List (List Char)) :=
  variants.foldlM (parseStep mode) []

/-! ## The arrays as postfix notation -/

/-- What an array is taken for. -/
def Variant.toToken (variant : Variant) : Token Variant Bool :=
  if isOperator variant.token then .operator (isOpAnd variant.token) else .operand variant

/-- A condition as a tree of arrays. -/
def conditionTree : EventOperator → Tree Variant Bool
  | eventMatch name env _ _ => .leaf ⟨name, env⟩
  | eventAnd _ l r => .node true (conditionTree l) (conditionTree r)
  | eventOr _ l r => .node false (conditionTree l) (conditionTree r)

/-- The arrays of the events, from left to right. -/
def eventArrays : EventOperator → List Variant
  | eventMatch name env _ _ => [⟨name, env⟩]
  | eventAnd _ l r => eventArrays l ++ eventArrays r
  | eventOr _ l r => eventArrays l ++ eventArrays r

variable {tree : EventOperator}

/-- The arrays of an operator are those of its operands, and its own. -/
theorem conditionArrays_and (value : Bool) (l r : EventOperator) :
    conditionArrays (some (eventAnd value l r)) =
      conditionArrays (some l) ++ conditionArrays (some r) ++ [⟨"/AND", []⟩] := by
  simp [conditionArrays, postOrder, conditionArray]

theorem conditionArrays_or (value : Bool) (l r : EventOperator) :
    conditionArrays (some (eventOr value l r)) =
      conditionArrays (some l) ++ conditionArrays (some r) ++ [⟨"/OR", []⟩] := by
  simp [conditionArrays, postOrder, conditionArray]

theorem conditionArrays_ne_nil (tree : EventOperator) : conditionArrays (some tree) ≠ [] := by
  cases tree with
  | eventMatch name env value event => exact List.cons_ne_nil _ _
  | eventAnd value l r => simp [conditionArrays_and]
  | eventOr value l r => simp [conditionArrays_or]

/-- The arrays are the postfix notation of the condition. -/
theorem conditionArrays_tokens
    (h : ∀ variant ∈ eventArrays tree, isOperator variant.token = false) :
    (conditionArrays (some tree)).map Variant.toToken = (conditionTree tree).tokens := by
  induction tree with
  | eventMatch name env value event =>
    have hname : isOperator name = false := h ⟨name, env⟩ (List.mem_singleton_self _)
    show [Variant.toToken ⟨name, env⟩] = [.operand ⟨name, env⟩]
    rw [Variant.toToken, hname]
    rfl
  | eventAnd value l r ihl ihr =>
    rw [conditionArrays_and, List.map_append, List.map_append,
      ihl fun variant hvariant => h variant (List.mem_append_left _ hvariant),
      ihr fun variant hvariant => h variant (List.mem_append_right _ hvariant)]
    rfl
  | eventOr value l r ihl ihr =>
    rw [conditionArrays_or, List.map_append, List.map_append,
      ihl fun variant hvariant => h variant (List.mem_append_left _ hvariant),
      ihr fun variant hvariant => h variant (List.mem_append_right _ hvariant)]
    rfl

/-- There is one operator less than there are operands, and each event that is taken for an
operator is one more of these and one less of those. -/
theorem countP_conditionArrays (tree : EventOperator) :
    ((conditionArrays (some tree)).map Variant.toToken).countP Token.isOperator + 1 =
      (((conditionArrays (some tree)).map Variant.toToken).countP fun t => !t.isOperator) +
        2 * (eventArrays tree).countP fun variant => isOperator variant.token := by
  induction tree with
  | eventMatch name env value event =>
    show [Variant.toToken ⟨name, env⟩].countP Token.isOperator + 1 = _ +
      2 * [(⟨name, env⟩ : Variant)].countP fun variant => isOperator variant.token
    cases hname : isOperator name <;>
      simp [conditionArrays, postOrder, conditionArray, Variant.toToken, hname, Token.isOperator]
  | eventAnd value l r ihl ihr =>
    have hmarker : [(⟨"/AND", []⟩ : Variant)].map Variant.toToken = [.operator true] := rfl
    have hone : [(.operator true : Token Variant Bool)].countP Token.isOperator = 1 := rfl
    have hzero : ([(.operator true : Token Variant Bool)].countP fun t => !t.isOperator) = 0 := rfl
    simp only [conditionArrays_and, List.map_append, hmarker, List.countP_append, hone, hzero,
      eventArrays]
    omega
  | eventOr value l r ihl ihr =>
    have hmarker : [(⟨"/OR", []⟩ : Variant)].map Variant.toToken = [.operator false] := rfl
    have hone : [(.operator false : Token Variant Bool)].countP Token.isOperator = 1 := rfl
    have hzero : ([(.operator false : Token Variant Bool)].countP fun t => !t.isOperator) = 0 := rfl
    simp only [conditionArrays_or, List.map_append, hmarker, List.countP_append, hone, hzero,
      eventArrays]
    omega

/-- Where an event is called as an operator is, there are too few values for the operators. -/
theorem run_marker {σ : Type} (value : Variant → σ) (join : Bool → σ → σ → σ)
    {variant : Variant} (hmem : variant ∈ eventArrays tree)
    (hmarker : isOperator variant.token = true) :
    run value join [] ((conditionArrays (some tree)).map Variant.toToken) = none := by
  have hcount : 0 < (eventArrays tree).countP fun variant => isOperator variant.token :=
    List.countP_pos_iff.mpr ⟨variant, hmem, hmarker⟩
  have hoperators := countP_conditionArrays tree
  cases hrun : run value join [] ((conditionArrays (some tree)).map Variant.toToken) with
  | none => rfl
  | some stack' =>
    have hlength := run_length hrun
    rw [List.length_nil] at hlength
    omega

end Startup.Initctl
