import Startup.Event.Operator
import Mathlib.Data.List.Basic

/-!
# Conditions as texts (`init/event_operator.c`, `init/state.c`)

`event_operator_collapse` visits the tree in post-order and keeps the texts of the operators
that it has left on a stack.

* `stateCollapseEnv`: the arguments of an event.
* `collapseLoop`, `eventOperatorCollapse`: the traversal, which has no result where an assertion
  fails.
* `eventOperatorCollapse_eq`: no assertion fails, and the result is the text of the tree.
-/

namespace Startup

open EventOperator

/-! ## Arguments -/

/-- An argument in `state_collapse_env`: where there is white space from the `=` on, what is
behind that is quoted. -/
def collapseElem (elem : List Char) : List Char :=
  let p := elem.dropWhile (· ≠ '=')
  if p.any fun c => c = ' ' ∨ c = '\t' then
    elem.takeWhile (· ≠ '=') ++ '=' :: '"' :: (p.tail ++ ['"'])
  else elem

/-- `state_collapse_env`. -/
def stateCollapseEnv (env : List String) : List Char :=
  [' '].intercalate (env.map fun elem => collapseElem elem.toList)

/-- The name of an event, with its arguments if there are any. -/
def collapseEvent (name : String) (env : List String) : List Char :=
  name.toList ++ if env = [] then [] else ' ' :: stateCollapseEnv env

/-! ## The traversal -/

/-- `NIH_TREE_FOREACH_POST`: the nodes, the root last. -/
def postOrder : EventOperator → List EventOperator
  | eventMatch name env value event => [eventMatch name env value event]
  | eventAnd value l r => postOrder l ++ postOrder r ++ [eventAnd value l r]
  | eventOr value l r => postOrder l ++ postOrder r ++ [eventOr value l r]

/-- The text of a child, which for an operator is on top of the stack. -/
def collapseOperand (oper : EventOperator) (stack : List (List Char)) :
    Option (List Char × List (List Char)) :=
  match oper, stack with
  | eventMatch name env _ _, stack => some (collapseEvent name env, stack)
  | eventAnd .., latest :: stack => some (latest, stack)
  | eventOr .., latest :: stack => some (latest, stack)
  | eventAnd .., [] => none
  | eventOr .., [] => none

/-- An operator, right child first. -/
def collapseOperator (left right : EventOperator) (word : String) (stack : List (List Char)) :
    Option (List (List Char)) := do
  let (rightExpr, stack) ← collapseOperand right stack
  let (leftExpr, stack) ← collapseOperand left stack
  some (('(' :: (leftExpr ++ ' ' :: word.toList ++ ' ' :: rightExpr ++ [')'])) :: stack)

/-- The loop over the nodes.  An event is pushed if it is the root, which is the last node. -/
def collapseLoop : List EventOperator → List (List Char) → Option (List (List Char))
  | [], stack => some stack
  | [eventMatch name env _ _], stack => some (collapseEvent name env :: stack)
  | eventMatch .. :: nodes, stack => collapseLoop nodes stack
  | eventAnd _ l r :: nodes, stack => do collapseLoop nodes (← collapseOperator l r "and" stack)
  | eventOr _ l r :: nodes, stack => do collapseLoop nodes (← collapseOperator l r "or" stack)

/-- `event_operator_collapse`. -/
def eventOperatorCollapse (condition : EventOperator) : Option (List Char) :=
  match collapseLoop (postOrder condition) [] with
  | some [latest] => some latest
  | _ => none

/-! ## The text of a tree -/

/-- The condition, fully bracketed. -/
def collapseText : EventOperator → List Char
  | eventMatch name env _ _ => collapseEvent name env
  | eventAnd _ l r => '(' :: (collapseText l ++ " and ".toList ++ collapseText r ++ [')'])
  | eventOr _ l r => '(' :: (collapseText l ++ " or ".toList ++ collapseText r ++ [')'])

example : eventOperatorCollapse (.eventOr false (.eventMatch "a" ["X=1 2", "b"] false none)
    (.eventAnd false (.eventMatch "c" [] false none) (.eventMatch "d" [] false none))) =
    some "(a X=\"1 2\" b or (c and d))".toList := by decide

/-- What a subtree leaves on the stack. -/
def pushed : EventOperator → List (List Char) → List (List Char)
  | eventMatch .., stack => stack
  | eventAnd value l r, stack => collapseText (eventAnd value l r) :: stack
  | eventOr value l r, stack => collapseText (eventOr value l r) :: stack

variable {stack : List (List Char)} {nodes : List EventOperator}

theorem collapseOperand_pushed (oper : EventOperator) (stack : List (List Char)) :
    collapseOperand oper (pushed oper stack) = some (collapseText oper, stack) := by
  cases oper <;> rfl

/-- An operator whose subtrees have been visited. -/
theorem collapseOperator_pushed (l r : EventOperator) (word : String)
    (stack : List (List Char)) :
    collapseOperator l r word (pushed r (pushed l stack)) =
      some (('(' :: (collapseText l ++ ' ' :: word.toList ++ ' ' :: collapseText r ++ [')'])) ::
        stack) := by
  simp only [collapseOperator, collapseOperand_pushed, bind, Option.bind]

/-- A subtree is visited before the nodes behind it. -/
theorem collapseLoop_subtree (tree : EventOperator) (hnodes : nodes ≠ []) :
    ∀ stack, collapseLoop (postOrder tree ++ nodes) stack =
      collapseLoop nodes (pushed tree stack) := by
  induction tree generalizing nodes with
  | eventMatch name env value event =>
    intro stack
    obtain ⟨node, nodes, rfl⟩ := List.exists_cons_of_ne_nil hnodes
    rfl
  | eventAnd value l r ihl ihr =>
    intro stack
    rw [postOrder, List.append_assoc, List.append_assoc, ihl (by simp), ihr (by simp)]
    show (collapseOperator l r "and" _ >>= collapseLoop nodes) = _
    rw [collapseOperator_pushed]
    simp [pushed, collapseText]
  | eventOr value l r ihl ihr =>
    intro stack
    rw [postOrder, List.append_assoc, List.append_assoc, ihl (by simp), ihr (by simp)]
    show (collapseOperator l r "or" _ >>= collapseLoop nodes) = _
    rw [collapseOperator_pushed]
    simp [pushed, collapseText]

/-- No assertion fails, and the result is the text of the tree. -/
theorem eventOperatorCollapse_eq (condition : EventOperator) :
    eventOperatorCollapse condition = some (collapseText condition) := by
  have hloop : collapseLoop (postOrder condition) [] = some [collapseText condition] := by
    cases condition with
    | eventMatch name env value event => rfl
    | eventAnd value l r =>
      rw [postOrder, List.append_assoc, collapseLoop_subtree l (by simp),
        collapseLoop_subtree r (by simp)]
      show (collapseOperator l r "and" _ >>= collapseLoop []) = _
      rw [collapseOperator_pushed]
      simp [collapseText, collapseLoop]
    | eventOr value l r =>
      rw [postOrder, List.append_assoc, collapseLoop_subtree l (by simp),
        collapseLoop_subtree r (by simp)]
      show (collapseOperator l r "or" _ >>= collapseLoop []) = _
      rw [collapseOperator_pushed]
      simp [collapseText, collapseLoop]
  rw [eventOperatorCollapse, hloop]

end Startup
