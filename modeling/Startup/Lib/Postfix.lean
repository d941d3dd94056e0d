import Mathlib.Data.List.Basic
import Mathlib.Tactic.Common

/-!
# Postfix notation

A tree with operators at its inner nodes is written with the operators behind their operands,
and is read with a stack.

* `Tree.tokens`: a tree in postfix notation; `Tree.fold`: its value.
* `run`: the tokens are read, unless an operator finds less than two values.
* `run_tokens`: the notation of a tree leaves its value on the stack.
* `run_length`: each operator takes one value off the stack in the end, so that a notation with
  as many operators as operands cannot be read.
-/

namespace Startup.Lib.Postfix

/-- A token. -/
inductive Token (α β : Type) where
  | operand (a : α)
  | operator (b : β)
  deriving DecidableEq, Repr

/-- A tree with operands at its leaves. -/
inductive Tree (α β : Type) where
  | leaf (a : α)
  | node (b : β) (left right : Tree α β)
  deriving DecidableEq, Repr

variable {α β σ : Type}

/-- A token is an operator. -/
def Token.isOperator : Token α β → Bool
  | .operand _ => false
  | .operator _ => true

/-- The operators behind their operands. -/
def Tree.tokens : Tree α β → List (Token α β)
  | .leaf a => [.operand a]
  | .node b l r => l.tokens ++ r.tokens ++ [.operator b]

variable (value : α → σ) (join : β → σ → σ → σ)

/-- The value of a tree; an operator is given the left operand first. -/
def Tree.fold : Tree α β → σ
  | .leaf a => value a
  | .node b l r => join b l.fold r.fold

/-- A token is read: an operator takes its right operand off the stack, and then its left one. -/
def step : List σ → Token α β → Option (List σ)
  | stack, .operand a => some (value a :: stack)
  | right :: left :: stack, .operator b => some (join b left right :: stack)
  | _, .operator _ => none

/-- Tokens are read. -/
def run (stack : List σ) (tokens : List (Token α β)) : Option (List σ) :=
  tokens.foldlM (step value join) stack

variable {value join} {stack stack' : List σ} {t : Token α β} {ts us : List (Token α β)}

theorem run_append :
    run value join stack (ts ++ us) = (run value join stack ts).bind fun s =>
      run value join s us := by
  unfold run
  rw [List.foldlM_append]
  rfl

/-- The notation of a tree leaves its value. -/
theorem run_tokens (value : α → σ) (join : β → σ → σ → σ) (tree : Tree α β) (stack : List σ) :
    run value join stack tree.tokens = some (tree.fold value join :: stack) := by
  induction tree generalizing stack with
  | leaf a => rfl
  | node b l r ihl ihr =>
    rw [Tree.tokens, run_append, run_append, ihl, Option.bind_some, ihr, Option.bind_some]
    rfl

theorem step_length (h : step value join stack t = some stack') :
    stack'.length + (if t.isOperator then 1 else 0) =
      stack.length + (if t.isOperator then 0 else 1) := by
  cases t with
  | operand a =>
    obtain rfl : value a :: stack = stack' := Option.some.inj h
    simp [Token.isOperator]
  | operator b =>
    match stack, h with
    | right :: left :: stack, h =>
      obtain rfl : join b left right :: stack = stack' := Option.some.inj h
      simp [Token.isOperator]

/-- Each operand puts a value on the stack, and each operator takes one off it. -/
theorem run_length (h : run value join stack ts = some stack') :
    stack'.length + ts.countP Token.isOperator =
      stack.length + ts.countP fun t => !t.isOperator := by
  induction ts generalizing stack with
  | nil =>
    obtain rfl : stack = stack' := Option.some.inj h
    simp
  | cons t ts ih =>
    unfold run at h
    rw [List.foldlM_cons] at h
    obtain ⟨s, hs, hrest⟩ := Option.bind_eq_some_iff.mp h
    have hstep := step_length hs
    have hrest := ih hrest
    rw [List.countP_cons, List.countP_cons]
    cases ht : t.isOperator with
    | true =>
      simp only [ht, if_true, Bool.not_true, Bool.false_eq_true, if_false] at hstep ⊢
      omega
    | false =>
      simp only [ht, if_true, Bool.not_false, Bool.false_eq_true, if_false] at hstep ⊢
      omega

end Startup.Lib.Postfix
