import Startup.Event.Operator
import Mathlib.Algebra.Group.Nat.Defs

/-!
# The stack of `parse_on` (`init/parse_job.c`)

`parse_on` builds the tree of a `start on` or `stop on` condition with a stack of operators
and `root`, the tree that has been collected last.  `OnState` is that state, and what each
kind of token does to it is a function.  `Derives` is the grammar of conditions.

* `Reaches`: the states that a sequence of tokens leads to, by what has been read;
* `parseTokens_iff`: the functions accept the grammar, and build the tree that it gives.
-/

namespace Startup.ParseJob

/-- The errors that `parse_on` raises.  `token` is one of the tokeniser's. -/
inductive OnError where
  | expectedEvent
  | expectedOperator
  | expectedVariable
  | mismatchedParens
  | token
  deriving DecidableEq, Repr

/-- `EVENT_OR` and `EVENT_AND` -/
inductive OnOperator where
  | or
  | and
  deriving DecidableEq, Repr

/-- The node with two children. -/
def OnOperator.node : OnOperator → EventOperator → EventOperator → EventOperator
  | or, left, right => .eventOr false left right
  | and, left, right => .eventAnd false left right

/-- The `EventOperator` of an item of the stack: an event with its arguments, or an operator
that has its left child only. -/
inductive OnItem where
  | eventMatch (name : String) (env : List String)
  | operator (type : OnOperator) (left : EventOperator)
  deriving DecidableEq

/-- What `parse_on` keeps: the stack, whose items without an operator stand for an open
parenthesis, the tree collected last, and the number of open parentheses. -/
structure OnState where
  stack : List (Option OnItem)
  root : Option EventOperator
  paren : Nat
  deriving DecidableEq

/-- Nothing is read yet. -/
def onStart : OnState := ⟨[], none, 0⟩

/-- An item of the stack becomes the root, above what was. -/
def collectItem : OnItem → Option EventOperator → Except OnError EventOperator
  | .operator type left, some root => .ok (type.node left root)
  | .operator _ _, none => .error .expectedEvent
  | .eventMatch _ _, some _ => .error .expectedOperator
  | .eventMatch name env, none => .ok (.eventMatch name env false none)

/-- `parse_on_collect`: the items down to an open parenthesis. -/
def parseOnCollect : List (Option OnItem) → Option EventOperator →
    Except OnError (List (Option OnItem) × EventOperator)
  | some item :: stack, root => do
    let root ← collectItem item root
    parseOnCollect stack (some root)
  | none :: stack, some root => .ok (none :: stack, root)
  | [], some root => .ok ([], root)
  | _, none => .error .expectedEvent

/-- `parse_on_operator` for an operator. -/
def shiftOperator (type : OnOperator) (st : OnState) : Except OnError OnState := do
  let (stack, root) ← parseOnCollect st.stack st.root
  .ok { st with stack := some (.operator type root) :: stack, root := none }

/-- No argument without a value follows one that has one.  `pos` says whether none has had a
value yet. -/
def argsOrdered : Bool → List String → Bool
  | _, [] => true
  | pos, e :: es => if hasValue e then argsOrdered false es else pos && argsOrdered pos es

/-- `parse_on_operand`: an argument of the event on top of the stack, or else an event. -/
def parseOnOperand (arg : String) (st : OnState) : Except OnError OnState :=
  match st.stack with
  | some (.eventMatch name env) :: stack =>
    if argsOrdered true (env ++ [arg]) then
      .ok { st with stack := some (.eventMatch name (env ++ [arg])) :: stack }
    else .error .expectedVariable
  | stack => .ok { st with stack := some (.eventMatch arg []) :: stack }

/-- `parse_on_paren` at an open parenthesis.  The count of them stays within a `size_t`, as
each is a byte of the file. -/
def openParen (st : OnState) : Except OnError OnState :=
  match st.root, st.stack with
  | none, some (.eventMatch _ _) :: _ => .error .expectedOperator
  | none, stack => .ok { st with stack := none :: stack, paren := st.paren + 1 }
  | some _, _ => .error .expectedOperator

/-- `(*paren)--` of a `size_t` -/
def decrement (paren : Nat) : Nat := if paren = 0 then 2 ^ 64 - 1 else paren - 1

/-- `parse_on_paren` at a close parenthesis. -/
def closeParen (st : OnState) : Except OnError OnState := do
  let (stack, root) ← parseOnCollect st.stack st.root
  match stack with
  | [] => .error .mismatchedParens
  | _ :: stack => .ok ⟨stack, some root, decrement st.paren⟩

/-! ## The grammar -/

/-- The tokens of a condition. -/
inductive OnToken where
  | openParen
  | closeParen
  | operator (type : OnOperator)
  | word (arg : String)
  deriving DecidableEq

/-- What a token does. -/
def OnState.step (st : OnState) : OnToken → Except OnError OnState
  | .openParen => ParseJob.openParen st
  | .closeParen => ParseJob.closeParen st
  | .operator type => shiftOperator type st
  | .word arg => parseOnOperand arg st

/-- What `parse_on` does at the end: one tree is left, and no open parenthesis. -/
def OnState.finish (st : OnState) : Except OnError EventOperator := do
  let (stack, root) ← parseOnCollect st.stack st.root
  if stack.isEmpty then .ok root else .error .mismatchedParens

/-- The tokens of a condition are read one after the other. -/
def parseTokens (ts : List OnToken) : Except OnError EventOperator := do
  let st ← ts.foldlM OnState.step onStart
  st.finish

/-- No positional argument follows a named one. -/
def NamedLast (args : List String) : Prop :=
  args.Pairwise fun a b => hasValue a = true → hasValue b = true

/-- The two kinds of phrases. -/
inductive OnSort where
  | term
  | expr
  deriving DecidableEq

/-- The grammar of conditions, with the tree of each phrase: `E ::= T | E (and|or) T` and
`T ::= EVENT ARG* | ( E )`. -/
inductive Derives : OnSort → List OnToken → EventOperator → Prop where
  | event (name : String) (args : List String) (h : NamedLast args) :
      Derives .term (.word name :: args.map .word) (.eventMatch name args false none)
  | group {ts t} (h : Derives .expr ts t) :
      Derives .term (.openParen :: (ts ++ [.closeParen])) t
  | single {ts t} (h : Derives .term ts t) : Derives .expr ts t
  | operator {ts us l r} (type : OnOperator) (hl : Derives .expr ts l) (hr : Derives .term us r) :
      Derives .expr (ts ++ .operator type :: us) (type.node l r)

example : parseTokens [.word "a", .operator .or, .openParen, .word "b", .word "X=1",
      .operator .and, .word "c", .closeParen] =
    .ok (.eventOr false (.eventMatch "a" [] false none)
      (.eventAnd false (.eventMatch "b" ["X=1"] false none) (.eventMatch "c" [] false none))) := by
  decide

theorem argsOrdered_false (args : List String) :
    argsOrdered false args = true ↔ ∀ a ∈ args, hasValue a = true := by
  induction args with
  | nil => simp [argsOrdered]
  | cons a args ih =>
    rw [argsOrdered, List.forall_mem_cons]
    by_cases ha : hasValue a = true
    · rw [if_pos ha, ih, and_iff_right ha]
    · rw [if_neg ha]
      simp [ha]

theorem argsOrdered_iff (args : List String) : argsOrdered true args = true ↔ NamedLast args := by
  induction args with
  | nil => simp [argsOrdered, NamedLast]
  | cons a args ih =>
    rw [argsOrdered, NamedLast, List.pairwise_cons]
    by_cases ha : hasValue a = true
    · rw [if_pos ha, argsOrdered_false]
      constructor
      · intro h
        exact ⟨fun b hb _ => h b hb, List.pairwise_of_forall_mem_list fun _ _ b hb _ => h b hb⟩
      · exact fun h b hb => h.1 b hb ha
    · rw [if_neg ha, Bool.true_and, ih, NamedLast]
      exact ⟨fun h => ⟨fun _ _ ha' => absurd ha' ha, h⟩, fun h => h.2⟩

/-! ## What is accepted derives -/

/-- The stack is empty, or has an open parenthesis on top. -/
def Open (stack : List (Option OnItem)) : Prop :=
  ∀ item rest, stack ≠ some item :: rest

/-- Tokens after which an operand must come, and the stack that they lead to. -/
inductive Leads : List OnToken → List (Option OnItem) → Prop where
  | start : Leads [] []
  | paren {ts s} (h : Leads ts s) : Leads (ts ++ [.openParen]) (none :: s)
  | operator {ts us s l} (type : OnOperator) (h : Leads ts s) (hs : Open s)
      (hl : Derives .expr us l) :
      Leads (ts ++ (us ++ [.operator type])) (some (.operator type l) :: s)

/-- The states that tokens lead to, by what has been read. -/
inductive Reaches : List OnToken → OnState → Prop where
  | operand {ts s paren} (h : Leads ts s) : Reaches ts ⟨s, none, paren⟩
  | event {ts s paren} (name : String) (args : List String) (h : Leads ts s)
      (hargs : NamedLast args) :
      Reaches (ts ++ .word name :: args.map .word)
        ⟨some (.eventMatch name args) :: s, none, paren⟩
  | group {ts us s t paren} (h : Leads ts s) (ht : Derives .term us t) :
      Reaches (ts ++ us) ⟨s, some t, paren⟩
  /-- an event behind a group, which is an error as soon as it is collected -/
  | adjacent {ts s t paren} (name : String) (args : List String) :
      Reaches ts ⟨some (.eventMatch name args) :: s, some t, paren⟩

variable {ts us : List OnToken} {stack s : List (Option OnItem)} {root t : EventOperator}
  {st st' : OnState} {tok : OnToken}

theorem bind_ok {α β : Type} {m : Except OnError α} {f : α → Except OnError β} {b : β}
    (h : m >>= f = .ok b) : ∃ a, m = .ok a ∧ f a = .ok b := by
  cases m with
  | error e => cases h
  | ok a => exact ⟨a, rfl, h⟩

theorem parseOnCollect_open (hs : Open s) (t : EventOperator) :
    parseOnCollect s (some t) = .ok (s, t) := by
  cases s with
  | nil => rfl
  | cons item rest =>
    cases item with
    | none => rfl
    | some item => exact absurd rfl (hs item rest)

/-- A term becomes the last one of the expression that it stands in. -/
theorem Leads.collect (h : Leads ts s) (ht : Derives .term us t)
    (hcollect : parseOnCollect s (some t) = .ok (stack, root)) :
    ∃ vs ws, ts ++ us = vs ++ ws ∧ Leads vs stack ∧ Open stack ∧ Derives .expr ws root := by
  cases h with
  | start =>
    cases hcollect
    exact ⟨[], us, rfl, .start, nofun, .single ht⟩
  | paren h =>
    cases hcollect
    exact ⟨_, us, rfl, .paren h, nofun, .single ht⟩
  | @operator ts' us' s' l type h hs hl =>
    have hcollect : parseOnCollect s' (some (type.node l t)) = .ok (stack, root) := hcollect
    rw [parseOnCollect_open hs] at hcollect
    cases hcollect
    refine ⟨ts', us' ++ .operator type :: us, ?_, h, hs, .operator type hl ht⟩
    simp only [List.append_assoc, List.singleton_append]

/-- What is collected is an expression, and what is left of the stack waits for it. -/
theorem Reaches.collect (h : Reaches ts st)
    (hcollect : parseOnCollect st.stack st.root = .ok (stack, root)) :
    ∃ vs ws, ts = vs ++ ws ∧ Leads vs stack ∧ Open stack ∧ Derives .expr ws root := by
  cases h with
  | operand h =>
    cases h with
    | start => cases hcollect
    | paren h => cases hcollect
    | operator type h hs hl => cases hcollect
  | event name args h hargs => exact h.collect (.event name args hargs) hcollect
  | group h ht => exact h.collect ht hcollect
  | adjacent name args => cases hcollect

/-- An operand where one must come. -/
theorem Leads.operand (h : Leads ts s) (arg : String) (root : Option EventOperator) (paren : Nat) :
    parseOnOperand arg ⟨s, root, paren⟩ = .ok ⟨some (.eventMatch arg []) :: s, root, paren⟩ := by
  cases h <;> rfl

theorem Reaches.step (h : Reaches ts st) (hstep : st.step tok = .ok st') :
    Reaches (ts ++ [tok]) st' := by
  cases tok with
  | openParen =>
    cases h with
    | @operand ts s paren h =>
      have hst : st' = ⟨none :: s, none, paren + 1⟩ := by
        cases h <;> exact (Except.ok.inj hstep).symm
      subst hst
      exact .operand h.paren
    | event name args h hargs => cases hstep
    | group h ht => cases hstep
    | adjacent name args => cases hstep
  | closeParen =>
    obtain ⟨⟨stack, root⟩, hcollect, hrest⟩ := bind_ok hstep
    obtain ⟨vs, ws, rfl, hvs, hopen, hws⟩ := h.collect hcollect
    cases hvs with
    | start => cases hrest
    | @paren vs s hvs =>
      cases hrest
      have htokens : vs ++ [OnToken.openParen] ++ ws ++ [.closeParen] =
          vs ++ .openParen :: (ws ++ [.closeParen]) := by simp
      rw [htokens]
      exact .group hvs (.group hws)
    | operator type h hs hl => exact absurd rfl (hopen _ _)
  | operator type =>
    obtain ⟨⟨stack, root⟩, hcollect, hrest⟩ := bind_ok hstep
    obtain ⟨vs, ws, rfl, hvs, hopen, hws⟩ := h.collect hcollect
    cases hrest
    rw [List.append_assoc]
    exact .operand (.operator type hvs hopen hws)
  | word arg =>
    cases h with
    | operand h =>
      have hst := (h.operand arg none _).symm.trans hstep
      cases hst
      exact .event arg [] h List.Pairwise.nil
    | @event ts s paren name args h hargs =>
      have hstep : (if argsOrdered true (args ++ [arg]) then
          Except.ok ⟨some (.eventMatch name (args ++ [arg])) :: s, none, paren⟩
          else .error OnError.expectedVariable) = Except.ok st' := hstep
      by_cases hordered : argsOrdered true (args ++ [arg]) = true
      · rw [if_pos hordered] at hstep
        cases hstep
        have htokens : ts ++ .word name :: args.map .word ++ [.word arg] =
            ts ++ OnToken.word name :: (args ++ [arg]).map .word := by simp
        rw [htokens]
        exact .event name _ h ((argsOrdered_iff _).mp hordered)
      · rw [if_neg hordered] at hstep
        cases hstep
    | group h ht =>
      have hst := (h.operand arg _ _).symm.trans hstep
      cases hst
      exact .adjacent arg []
    | @adjacent _ s t paren name args =>
      have hstep : (if argsOrdered true (args ++ [arg]) then
          Except.ok ⟨some (.eventMatch name (args ++ [arg])) :: s, some t, paren⟩
          else .error OnError.expectedVariable) = Except.ok st' := hstep
      split at hstep
      · cases hstep
        exact .adjacent name _
      · cases hstep

/-- Every state that tokens lead to is one of `Reaches`. -/
theorem Reaches.run (h : Reaches ts st) (hrun : us.foldlM OnState.step st = .ok st') :
    Reaches (ts ++ us) st' := by
  induction us generalizing ts st with
  | nil =>
    cases hrun
    rwa [List.append_nil]
  | cons tok us ih =>
    rw [List.foldlM_cons] at hrun
    obtain ⟨st₁, hstep, hrest⟩ := bind_ok hrun
    have hreach := ih (h.step hstep) hrest
    rwa [List.append_assoc] at hreach

/-! ## What derives is accepted -/

/-- An operand may come: no event is on top of the stack. -/
def Ready (stack : List (Option OnItem)) : Prop :=
  ∀ name env rest, stack ≠ some (.eventMatch name env) :: rest

theorem Ready.operand (hs : Ready s) (arg : String) (paren : Nat) :
    parseOnOperand arg ⟨s, none, paren⟩ = .ok ⟨some (.eventMatch arg []) :: s, none, paren⟩ := by
  unfold parseOnOperand
  split
  · rename_i name env rest heq
    exact absurd heq (hs name env rest)
  · rfl

theorem Ready.openParen (hs : Ready s) (paren : Nat) :
    openParen ⟨s, none, paren⟩ = .ok ⟨none :: s, none, paren + 1⟩ := by
  unfold ParseJob.openParen
  split
  · rename_i name env rest _ heq
    exact absurd heq (hs name env rest)
  · rfl
  · rename_i heq
    cases heq

/-- The arguments of an event, one after the other. -/
theorem run_arguments (name : String) (s : List (Option OnItem)) (paren : Nat)
    (args : List String) : ∀ env, NamedLast (env ++ args) →
      (args.map OnToken.word).foldlM OnState.step
          ⟨some (.eventMatch name env) :: s, none, paren⟩ =
        .ok ⟨some (.eventMatch name (env ++ args)) :: s, none, paren⟩ := by
  induction args with
  | nil =>
    intro env _
    rw [List.append_nil]
    rfl
  | cons arg args ih =>
    intro env h
    have hprefix : NamedLast (env ++ [arg]) := by
      rw [List.append_cons] at h
      exact (List.pairwise_append.mp h).1
    have hstep : OnState.step ⟨some (.eventMatch name env) :: s, none, paren⟩ (.word arg) =
        .ok ⟨some (.eventMatch name (env ++ [arg])) :: s, none, paren⟩ :=
      if_pos ((argsOrdered_iff _).mpr hprefix)
    rw [List.map_cons, List.foldlM_cons, hstep]
    have hrest := ih (env ++ [arg]) (by rwa [← List.append_cons])
    rwa [← List.append_cons] at hrest

/-- After the tokens of a term, it is on top of the stack or has been collected. -/
def Holding (s : List (Option OnItem)) (t : EventOperator) (paren : Nat) (st : OnState) : Prop :=
  (∃ name args, t = .eventMatch name args false none ∧
    st = ⟨some (.eventMatch name args) :: s, none, paren⟩) ∨ st = ⟨s, some t, paren⟩

theorem Holding.collect {paren : Nat} (h : Holding s t paren st) :
    parseOnCollect st.stack st.root = parseOnCollect s (some t) := by
  rcases h with ⟨name, args, rfl, rfl⟩ | rfl
  · rfl
  · rfl

theorem Holding.paren_eq {paren : Nat} (h : Holding s t paren st) : st.paren = paren := by
  rcases h with ⟨name, args, -, rfl⟩ | rfl
  · rfl
  · rfl

/-- What reading a phrase leads to. -/
def Reads : OnSort → List OnToken → EventOperator → Prop
  | .term, ts, t => ∀ s paren, Ready s →
    ∃ st, ts.foldlM OnState.step ⟨s, none, paren⟩ = .ok st ∧ Holding s t paren st
  | .expr, ts, t => ∀ s paren, Open s →
    ∃ st, ts.foldlM OnState.step ⟨s, none, paren⟩ = .ok st ∧
      parseOnCollect st.stack st.root = .ok (s, t) ∧ st.paren = paren

theorem Open.ready (hs : Open s) : Ready s := fun _ _ rest => hs _ rest

theorem run_append {st₁ : OnState} (h : ts.foldlM OnState.step st = .ok st₁) :
    (ts ++ us).foldlM OnState.step st = us.foldlM OnState.step st₁ := by
  rw [List.foldlM_append, h]
  rfl

/-- A phrase is read, with its tree. -/
theorem Derives.reads {sort : OnSort} (h : Derives sort ts t) : Reads sort ts t := by
  induction h with
  | event name args hargs =>
    intro s paren hs
    refine ⟨_, ?_, .inl ⟨name, args, rfl, rfl⟩⟩
    rw [List.foldlM_cons]
    show (parseOnOperand name ⟨s, none, paren⟩ >>= _) = _
    rw [hs.operand]
    exact run_arguments name s paren args [] hargs
  | @group ts t _ ih =>
    intro s paren hs
    obtain ⟨st, hrun, hcollect, hparen⟩ := ih (none :: s) (paren + 1) nofun
    refine ⟨⟨s, some t, paren⟩, ?_, .inr rfl⟩
    rw [List.foldlM_cons]
    show (ParseJob.openParen ⟨s, none, paren⟩ >>= _) = _
    rw [hs.openParen]
    show (ts ++ [OnToken.closeParen]).foldlM OnState.step _ = _
    rw [run_append hrun, List.foldlM_cons]
    show (ParseJob.closeParen st >>= _) = _
    rw [ParseJob.closeParen, hcollect, hparen]
    rfl
  | single _ ih =>
    intro s paren hs
    obtain ⟨st, hrun, hholding⟩ := ih s paren hs.ready
    refine ⟨st, hrun, ?_, hholding.paren_eq⟩
    rw [hholding.collect, parseOnCollect_open hs]
  | @operator ts us l r type _ _ ihl ihr =>
    intro s paren hs
    obtain ⟨st₁, hrun₁, hcollect, hparen⟩ := ihl s paren hs
    obtain ⟨st₂, hrun₂, hholding⟩ := ihr (some (.operator type l) :: s) paren nofun
    refine ⟨st₂, ?_, ?_, hholding.paren_eq⟩
    · rw [run_append hrun₁, List.foldlM_cons]
      show (shiftOperator type st₁ >>= _) = _
      rw [shiftOperator, hcollect]
      show us.foldlM OnState.step ⟨_, none, st₁.paren⟩ = _
      rw [hparen, hrun₂]
    · rw [hholding.collect]
      exact parseOnCollect_open hs _

/-! ## The language -/

theorem Reaches.finish (h : Reaches ts st) (hfinish : st.finish = .ok t) : Derives .expr ts t := by
  obtain ⟨⟨stack, root⟩, hcollect, hrest⟩ := bind_ok hfinish
  obtain ⟨vs, ws, rfl, hvs, -, hws⟩ := h.collect hcollect
  cases stack with
  | nil =>
    cases hvs
    cases hrest
    exact hws
  | cons item stack => cases hrest

/-- The functions accept the tokens that derive, and build their tree. -/
theorem parseTokens_iff (ts : List OnToken) (t : EventOperator) :
    parseTokens ts = .ok t ↔ Derives .expr ts t := by
  constructor
  · intro h
    obtain ⟨st, hrun, hfinish⟩ := bind_ok h
    exact ((Reaches.operand .start).run hrun).finish hfinish
  · intro h
    obtain ⟨st, hrun, hcollect, -⟩ := h.reads [] 0 nofun
    rw [parseTokens, onStart, hrun]
    show st.finish = _
    rw [OnState.finish, hcollect]
    rfl

/-! ## The count of parentheses -/

/-- The open parentheses on the stack. -/
def openParens (stack : List (Option OnItem)) : Nat :=
  stack.countP Option.isNone

/-- The depth behind a token. -/
def OnToken.depth (depth : Nat) : OnToken → Nat
  | .openParen => depth + 1
  | .closeParen => depth - 1
  | _ => depth

theorem parseOnCollect_parens {root : Option EventOperator}
    (h : parseOnCollect stack root = .ok (s, t)) : openParens s = openParens stack := by
  induction stack generalizing root with
  | nil =>
    cases root with
    | none => cases h
    | some root => cases h; rfl
  | cons item stack ih =>
    cases item with
    | none =>
      cases root with
      | none => cases h
      | some root => cases h; rfl
    | some item =>
      obtain ⟨root', hitem, hrest⟩ := bind_ok h
      exact (ih hrest).trans (List.countP_cons_of_neg Bool.false_ne_true).symm

theorem parseOnCollect_isOpen {root : Option EventOperator}
    (h : parseOnCollect stack root = .ok (s, t)) : Open s := by
  induction stack generalizing root with
  | nil =>
    cases root with
    | none => cases h
    | some root => cases h; exact nofun
  | cons item stack ih =>
    cases item with
    | none =>
      cases root with
      | none => cases h
      | some root => cases h; exact nofun
    | some item =>
      obtain ⟨root', hitem, hrest⟩ := bind_ok h
      exact ih hrest

/-- `paren` counts the open parentheses on the stack, and is the depth. -/
theorem OnState.step_paren (h : st.paren = openParens st.stack) (hstep : st.step tok = .ok st') :
    st'.paren = openParens st'.stack ∧ st'.paren = tok.depth st.paren := by
  cases tok with
  | openParen =>
    have hst : st' = ⟨none :: st.stack, none, st.paren + 1⟩ := by
      have hstep : ParseJob.openParen st = .ok st' := hstep
      unfold ParseJob.openParen at hstep
      split at hstep
      · cases hstep
      · rename_i hroot _
        cases hstep
        rw [hroot]
      · cases hstep
    subst hst
    refine ⟨?_, rfl⟩
    rw [openParens, List.countP_cons_of_pos rfl, h]
    rfl
  | closeParen =>
    obtain ⟨⟨stack, root⟩, hcollect, hrest⟩ := bind_ok hstep
    have hparens := parseOnCollect_parens hcollect
    cases stack with
    | nil => cases hrest
    | cons item stack =>
      cases item with
      | some item => exact absurd rfl (parseOnCollect_isOpen hcollect item stack)
      | none =>
        cases hrest
        have hcount : openParens st.stack = openParens stack + 1 := by
          rw [← hparens, openParens, List.countP_cons_of_pos rfl]
          rfl
        show decrement st.paren = openParens stack ∧ decrement st.paren = st.paren - 1
        rw [h, hcount, decrement, if_neg (Nat.succ_ne_zero _)]
        exact ⟨rfl, rfl⟩
  | operator type =>
    obtain ⟨⟨stack, root⟩, hcollect, hrest⟩ := bind_ok hstep
    have hparens := parseOnCollect_parens hcollect
    cases hrest
    refine ⟨?_, rfl⟩
    rw [openParens, List.countP_cons_of_neg Bool.false_ne_true, h, ← hparens]
    rfl
  | word arg =>
    have hstep : parseOnOperand arg st = .ok st' := hstep
    unfold parseOnOperand at hstep
    split at hstep
    · rename_i name env rest hstack
      split at hstep
      · cases hstep
        refine ⟨?_, rfl⟩
        rw [h, hstack, openParens, openParens, List.countP_cons_of_neg Bool.false_ne_true,
          List.countP_cons_of_neg Bool.false_ne_true]
      · cases hstep
    · cases hstep
      refine ⟨?_, rfl⟩
      rw [openParens, List.countP_cons_of_neg Bool.false_ne_true, h]
      rfl

end Startup.ParseJob
