import Startup.Event.OnTree

/-!
# `parse_on` (`init/parse_job.c`)

The loops of `parse_on` over the text of a configuration file.  The tokeniser is libnih's and
is a parameter; `Tokeniser.Lawful` is what `parse_on` relies on.

* `Lexed`: the tokens of a condition, on the lines that belong to it;
* `BlankInside`: a line within the parentheses has no token;
* `parseOn_iff`: `parse_on` accepts the grammar exactly where no such line is in a condition
  that derives.
-/

namespace Startup.ParseJob

/-- `*pos` and `*lineno` -/
structure Cursor where
  pos : Nat
  lineno : Nat
  deriving DecidableEq

/-- The tokeniser: `nih_config_skip_whitespace`, `nih_config_has_token`,
`nih_config_next_token` up to a parenthesis, comment, newline or white space, with or without
dequoting, and `nih_config_skip_comment`. -/
structure Tokeniser where
  skipWhitespace : List Char → Cursor → Cursor
  hasToken : List Char → Cursor → Bool
  nextToken : List Char → Cursor → Bool → Option String × Cursor
  skipComment : List Char → Cursor → Bool × Cursor

/-- What stops `parse_on`. -/
inductive OnFault where
  | raised (e : OnError)
  /-- `nih_assert_not_reached` -/
  | assertion
  /-- it has not ended yet -/
  | running
  deriving DecidableEq

/-- An error of the functions on the stack. -/
def raise {α : Type} (r : Except OnError α) : Except OnFault α :=
  r.mapError .raised

/-- `parse_on_paren`, with the position. -/
def parseOnParen (T : Tokeniser) (file : List Char) (c : Cursor) (st : OnState) :
    Except OnFault OnState × Cursor :=
  let r := match charAt file c.pos with
    | '(' => raise (openParen st)
    | ')' => raise (closeParen st)
    | _ => .error .assertion
  match r with
  | .ok st => (.ok st, T.skipWhitespace file { c with pos := c.pos + 1 })
  | .error e => (.error e, c)

/-- The known operators. -/
def onOperator (arg : String) : Option OnOperator :=
  if arg = "and" then some .and else if arg = "or" then some .or else none

/-- `parse_on_operator`, with the position. -/
def parseOnOperator (T : Tokeniser) (file : List Char) (c : Cursor) (st : OnState) :
    Except OnFault OnState × Cursor :=
  match T.nextToken file c false with
  | (none, a) => (.error (.raised .token), a)
  | (some arg, a) =>
    match onOperator arg with
    | some type =>
      match shiftOperator type st with
      | .ok st => (.ok st, a)
      | .error e => (.error (.raised e), c)
    | none =>
      match T.nextToken file c true with
      | (none, a) => (.error (.raised .token), a)
      | (some arg, a) => (raise (parseOnOperand arg st), a)

/-- The body of the inner loop of `parse_on`. -/
def parseOnToken (T : Tokeniser) (file : List Char) (c : Cursor) (st : OnState) :
    Except OnFault OnState × Cursor :=
  if c.pos < file.length ∧ strchr ['(', ')'] (charAt file c.pos) then parseOnParen T file c st
  else parseOnOperator T file c st

/-- The loops of `parse_on`.  The second cursor is that of the last token. -/
def parseOnLoop (T : Tokeniser) (file : List Char) :
    Nat → Cursor → OnState → Except OnFault OnState × Cursor × Cursor
  | 0, c, _ => (.error .running, c, c)
  | fuel + 1, c, st =>
    match parseOnToken T file c st with
    | (.error e, on) => (.error e, on, c)
    | (.ok st, on) =>
      if T.hasToken file on then parseOnLoop T file fuel on st
      else
        match T.skipComment file on with
        | (false, on) => (.error .assertion, on, c)
        | (true, on) =>
          if on.pos < file.length ∧ st.paren ≠ 0 then
            parseOnLoop T file fuel (T.skipWhitespace file on) st
          else (.ok st, on, c)

/-- `parse_on`, with the position that it leaves. -/
def parseOn (T : Tokeniser) (file : List Char) (c : Cursor) :
    Except OnFault EventOperator × Cursor :=
  match parseOnLoop T file (file.length + 1) (T.skipWhitespace file c) onStart with
  | (.error e, on, _) => (.error e, on)
  | (.ok st, on, mark) =>
    match parseOnCollect st.stack st.root with
    | .error e => (.error (.raised e), mark)
    | .ok (stack, root) =>
      if stack.isEmpty then (.ok root, on) else (.error (.raised .mismatchedParens), on)

/-! ## The tokens of a text -/

/-- Where the tokeniser stops: behind white space. -/
def Rests (T : Tokeniser) (file : List Char) (c : Cursor) : Prop :=
  (∃ c', c = T.skipWhitespace file c') ∨
    ∃ c' dequote arg, T.nextToken file c' dequote = (some arg, c)

/-- The tokeniser steps over the NUL bytes of a text, as over white space. -/
def StepsOverNul (T : Tokeniser) (file : List Char) : Prop :=
  ∀ c, Rests T file c → c.pos < file.length → charAt file c.pos ≠ '\x00'

/-- What `parse_on` relies on. -/
structure Tokeniser.Lawful (T : Tokeniser) (file : List Char) : Prop where
  skipWhitespace_le (c : Cursor) : c.pos ≤ (T.skipWhitespace file c).pos
  /-- a parenthesis is no comment and no end of line -/
  hasToken_paren (c : Cursor) (hc : c.pos < file.length)
    (hparen : charAt file c.pos = '(' ∨ charAt file c.pos = ')') : T.hasToken file c = true
  /-- at a comment or the end of a line there is no token to be had -/
  nextToken_none (c : Cursor) (dequote : Bool) (h : T.hasToken file c = false) :
    (T.nextToken file c dequote).1 = none
  nextToken_lt (c a : Cursor) (dequote : Bool) (arg : String)
    (h : T.nextToken file c dequote = (some arg, a)) : c.pos < a.pos ∧ c.pos < file.length
  /-- a comment and the end of the line are stepped over -/
  skipComment_ok (c : Cursor) (h : T.hasToken file c = false)
    (hnul : c.pos < file.length → charAt file c.pos ≠ '\x00') :
    ∃ a, T.skipComment file c = (true, a) ∧ c.pos ≤ a.pos

/-- The token at a position, and the position behind it. -/
def onTokenAt (T : Tokeniser) (file : List Char) (c : Cursor) : Option (OnToken × Cursor) :=
  if c.pos < file.length ∧ charAt file c.pos = '(' then
    some (.openParen, T.skipWhitespace file { c with pos := c.pos + 1 })
  else if c.pos < file.length ∧ charAt file c.pos = ')' then
    some (.closeParen, T.skipWhitespace file { c with pos := c.pos + 1 })
  else
    match T.nextToken file c false with
    | (none, _) => none
    | (some arg, a) =>
      match onOperator arg with
      | some type => some (.operator type, a)
      | none =>
        match T.nextToken file c true with
        | (some arg, a) => some (.word arg, a)
        | (none, _) => none

/-- The tokens of a condition from a position on, within `depth` parentheses.  It ends with
its line, or, within parentheses, with the file; lines without tokens are skipped. -/
inductive Lexed (T : Tokeniser) (file : List Char) : Nat → Cursor → List OnToken → Prop where
  | token {depth c tok a ts} (hc : T.hasToken file c = true)
      (htok : onTokenAt T file c = some (tok, a)) (h : Lexed T file (tok.depth depth) a ts) :
      Lexed T file depth c (tok :: ts)
  | line {depth c a ts} (hc : T.hasToken file c = false) (hdepth : depth ≠ 0)
      (ha : T.skipComment file c = (true, a)) (hlt : a.pos < file.length)
      (h : Lexed T file depth (T.skipWhitespace file a) ts) : Lexed T file depth c ts
  | done {depth c a} (hc : T.hasToken file c = false) (ha : T.skipComment file c = (true, a))
      (hend : depth = 0 ∨ file.length ≤ a.pos) : Lexed T file depth c []

/-- A line within the parentheses of a condition has no token: it is blank, or a comment. -/
inductive BlankInside (T : Tokeniser) (file : List Char) : Nat → Cursor → Prop where
  | here {depth c a} (hc : T.hasToken file c = false) (hdepth : depth ≠ 0)
      (ha : T.skipComment file c = (true, a)) (hlt : a.pos < file.length)
      (hblank : T.hasToken file (T.skipWhitespace file a) = false) : BlankInside T file depth c
  | token {depth c tok a} (hc : T.hasToken file c = true)
      (htok : onTokenAt T file c = some (tok, a)) (h : BlankInside T file (tok.depth depth) a) :
      BlankInside T file depth c
  | line {depth c a} (hc : T.hasToken file c = false) (hdepth : depth ≠ 0)
      (ha : T.skipComment file c = (true, a)) (hlt : a.pos < file.length)
      (h : BlankInside T file depth (T.skipWhitespace file a)) : BlankInside T file depth c

/-- What one pass of the loops comes to. -/
inductive LoopCase (T : Tokeniser) (file : List Char) (fuel : Nat) (c : Cursor) (st : OnState) :
    Prop where
  | noToken (htok : onTokenAt T file c = none)
      (h : (parseOnLoop T file (fuel + 1) c st).1 = .error (.raised .token))
  | error {tok a e} (htok : onTokenAt T file c = some (tok, a)) (hstep : st.step tok = .error e)
      (h : (parseOnLoop T file (fuel + 1) c st).1 = .error (.raised e))
  | next {tok a st'} (htok : onTokenAt T file c = some (tok, a)) (hstep : st.step tok = .ok st')
      (ha : T.hasToken file a = true)
      (h : parseOnLoop T file (fuel + 1) c st = parseOnLoop T file fuel a st')
  | line {tok a a' st'} (htok : onTokenAt T file c = some (tok, a))
      (hstep : st.step tok = .ok st') (ha : T.hasToken file a = false)
      (hskip : T.skipComment file a = (true, a')) (hle : a.pos ≤ a'.pos)
      (hlt : a'.pos < file.length) (hparen : st'.paren ≠ 0)
      (h : parseOnLoop T file (fuel + 1) c st =
        parseOnLoop T file fuel (T.skipWhitespace file a') st')
  | last {tok a a' st'} (htok : onTokenAt T file c = some (tok, a))
      (hstep : st.step tok = .ok st') (ha : T.hasToken file a = false)
      (hskip : T.skipComment file a = (true, a'))
      (hend : st'.paren = 0 ∨ file.length ≤ a'.pos)
      (h : parseOnLoop T file (fuel + 1) c st = (.ok st', a', c))

variable {T : Tokeniser} {file : List Char} {c a on mark : Cursor} {depth fuel : Nat}
  {st st' : OnState} {ts : List OnToken} {tok : OnToken}

/-! ## One token -/

theorem charAt_of_end (h : file.length ≤ c.pos) : charAt file c.pos = '\x00' := by
  rw [charAt, List.getD_eq_getElem?_getD, List.getElem?_eq_none h]
  rfl

/-- A token is behind the position, and moves it. -/
theorem onTokenAt_lt (hT : T.Lawful file) (h : onTokenAt T file c = some (tok, a)) :
    c.pos < file.length ∧ c.pos < a.pos ∧ Rests T file a ∧ T.hasToken file c = true := by
  have hword : ∀ dequote arg a, T.nextToken file c dequote = (some arg, a) →
      c.pos < file.length ∧ c.pos < a.pos ∧ Rests T file a ∧ T.hasToken file c = true := by
    intro dequote arg a h
    obtain ⟨hlt, hend⟩ := hT.nextToken_lt c a dequote arg h
    refine ⟨hend, hlt, .inr ⟨c, dequote, arg, h⟩, ?_⟩
    by_contra hc
    have hnone := hT.nextToken_none c dequote (Bool.eq_false_iff.mpr hc)
    rw [h] at hnone
    cases hnone
  have hparen : ∀ a, c.pos < file.length → (charAt file c.pos = '(' ∨ charAt file c.pos = ')') →
      a = T.skipWhitespace file { c with pos := c.pos + 1 } →
      c.pos < file.length ∧ c.pos < a.pos ∧ Rests T file a ∧ T.hasToken file c = true := by
    rintro a hlt hchar rfl
    refine ⟨hlt, ?_, .inl ⟨_, rfl⟩, hT.hasToken_paren c hlt hchar⟩
    exact Nat.lt_of_succ_le (hT.skipWhitespace_le ⟨c.pos + 1, c.lineno⟩)
  unfold onTokenAt at h
  split at h
  · rename_i hopen
    cases h
    exact hparen _ hopen.1 (.inl hopen.2) rfl
  split at h
  · rename_i hclose
    cases h
    exact hparen _ hclose.1 (.inr hclose.2) rfl
  split at h
  · cases h
  rename_i hnext
  split at h
  · cases h
    exact hword false _ _ hnext
  split at h
  · rename_i hnext
    cases h
    exact hword true _ _ hnext
  · cases h

/-- The body of the loop does what the token says. -/
theorem parseOnToken_eq (T : Tokeniser) (hnul : c.pos < file.length → charAt file c.pos ≠ '\x00')
    (st : OnState) :
    match onTokenAt T file c with
    | none => (parseOnToken T file c st).1 = .error (.raised .token)
    | some (tok, a) =>
      match st.step tok with
      | .ok st' => parseOnToken T file c st = (.ok st', a)
      | .error e => (parseOnToken T file c st).1 = .error (.raised e) := by
  unfold onTokenAt parseOnToken
  by_cases hopen : c.pos < file.length ∧ charAt file c.pos = '('
  · have hchar : c.pos < file.length ∧ strchr ['(', ')'] (charAt file c.pos) = true := by
      rw [hopen.2]
      exact ⟨hopen.1, rfl⟩
    rw [if_pos hopen, if_pos hchar]
    show match openParen st with
      | .ok st' => parseOnParen T file c st = (.ok st', _)
      | .error e => (parseOnParen T file c st).1 = .error (.raised e)
    unfold parseOnParen
    rw [hopen.2]
    cases openParen st with
    | ok st' => rfl
    | error e => rfl
  rw [if_neg hopen]
  by_cases hclose : c.pos < file.length ∧ charAt file c.pos = ')'
  · have hchar : c.pos < file.length ∧ strchr ['(', ')'] (charAt file c.pos) = true := by
      rw [hclose.2]
      exact ⟨hclose.1, rfl⟩
    rw [if_pos hclose, if_pos hchar]
    show match closeParen st with
      | .ok st' => parseOnParen T file c st = (.ok st', _)
      | .error e => (parseOnParen T file c st).1 = .error (.raised e)
    unfold parseOnParen
    rw [hclose.2]
    cases closeParen st with
    | ok st' => rfl
    | error e => rfl
  rw [if_neg hclose]
  have hchar : ¬(c.pos < file.length ∧ strchr ['(', ')'] (charAt file c.pos) = true) := by
    rintro ⟨hlt, hchar⟩
    have hother : charAt file c.pos ≠ '(' ∧ charAt file c.pos ≠ ')' :=
      ⟨fun h => hopen ⟨hlt, h⟩, fun h => hclose ⟨hlt, h⟩⟩
    simp [strchr, hother, hnul hlt] at hchar
  rw [if_neg hchar]
  unfold parseOnOperator
  cases T.nextToken file c false with
  | mk arg a =>
    cases arg with
    | none => rfl
    | some arg =>
      dsimp only
      cases onOperator arg with
      | some type =>
        show match shiftOperator type st with
          | .ok st' => _ = (Except.ok st', a)
          | .error e => _ = Except.error (OnFault.raised e)
        dsimp only
        cases shiftOperator type st with
        | ok st' => rfl
        | error e => rfl
      | none =>
        dsimp only
        cases T.nextToken file c true with
        | mk arg a =>
          cases arg with
          | none => rfl
          | some arg =>
            show match parseOnOperand arg st with
              | .ok st' => (raise (parseOnOperand arg st), a) = (Except.ok st', a)
              | .error e => raise (parseOnOperand arg st) = Except.error (OnFault.raised e)
            cases parseOnOperand arg st with
            | ok st' => rfl
            | error e => rfl

/-! ## The loops -/

/-- One pass, at a position where the tokeniser has stopped. -/
theorem parseOnLoop_cases (hT : T.Lawful file) (hnul : StepsOverNul T file) (hrest : Rests T file c)
    (fuel : Nat) (st : OnState) : LoopCase T file fuel c st := by
  have htoken := parseOnToken_eq T (hnul c hrest) st
  have hunfold : parseOnLoop T file (fuel + 1) c st =
      match parseOnToken T file c st with
      | (.error e, on) => (.error e, on, c)
      | (.ok st, on) =>
        if T.hasToken file on then parseOnLoop T file fuel on st
        else
          match T.skipComment file on with
          | (false, on) => (.error .assertion, on, c)
          | (true, on) =>
            if on.pos < file.length ∧ st.paren ≠ 0 then
              parseOnLoop T file fuel (T.skipWhitespace file on) st
            else (.ok st, on, c) := rfl
  have herror : ∀ e, (parseOnToken T file c st).1 = .error e →
      (parseOnLoop T file (fuel + 1) c st).1 = .error e := by
    intro e he
    rw [hunfold]
    cases hp : parseOnToken T file c st with
    | mk r a =>
      rw [hp] at he
      cases he
      rfl
  cases htok : onTokenAt T file c with
  | none =>
    rw [htok] at htoken
    exact .noToken htok (herror _ htoken)
  | some p =>
    obtain ⟨tok, a⟩ := p
    rw [htok] at htoken
    dsimp only at htoken
    cases hstep : st.step tok with
    | error e =>
      rw [hstep] at htoken
      exact .error htok hstep (herror _ htoken)
    | ok st' =>
      rw [hstep] at htoken
      dsimp only at htoken
      rw [htoken] at hunfold
      dsimp only at hunfold
      by_cases ha : T.hasToken file a = true
      · rw [if_pos ha] at hunfold
        exact .next htok hstep ha hunfold
      rw [if_neg ha] at hunfold
      have ha := Bool.eq_false_iff.mpr ha
      obtain ⟨-, -, hrest_a, -⟩ := onTokenAt_lt hT htok
      obtain ⟨a', hskip, hle⟩ := hT.skipComment_ok a ha (hnul a hrest_a)
      rw [hskip] at hunfold
      dsimp only at hunfold
      by_cases hmore : a'.pos < file.length ∧ st'.paren ≠ 0
      · rw [if_pos hmore] at hunfold
        exact .line htok hstep ha hskip hle hmore.1 hmore.2 hunfold
      · rw [if_neg hmore] at hunfold
        refine .last htok hstep ha hskip ?_ hunfold
        by_cases hparen : st'.paren = 0
        · exact .inl hparen
        · exact .inr (Nat.le_of_not_lt fun hlt => hmore ⟨hlt, hparen⟩)

/-- A blank line is behind the token that comes first. -/
theorem BlankInside.behind (h : BlankInside T file depth c) (hc : T.hasToken file c = true)
    (htok : onTokenAt T file c = some (tok, a)) : BlankInside T file (tok.depth depth) a := by
  cases h with
  | here hc' => rw [hc] at hc'; cases hc'
  | token _ htok' h =>
    rw [htok] at htok'
    cases htok'
    exact h
  | line hc' => rw [hc] at hc'; cases hc'

/-- What the loop reads is lexed, and no line within parentheses is blank. -/
theorem parseOnLoop_lexed (hT : T.Lawful file) (hnul : StepsOverNul T file) :
    ∀ c st, Rests T file c → st.paren = openParens st.stack →
      parseOnLoop T file fuel c st = (.ok st', on, mark) →
      ∃ ts, Lexed T file st.paren c ts ∧ ts.foldlM OnState.step st = .ok st' ∧
        ¬ BlankInside T file st.paren c ∧ T.hasToken file c = true := by
  induction fuel with
  | zero => exact fun _ _ _ _ h => nomatch h
  | succ fuel ih =>
    intro c st hrest hparen hloop
    cases parseOnLoop_cases hT hnul hrest fuel st with
    | noToken htok h => rw [hloop] at h; cases h
    | error htok hstep h => rw [hloop] at h; cases h
    | @next tok a st₁ htok hstep ha h =>
      obtain ⟨-, -, hrest_a, hc⟩ := onTokenAt_lt hT htok
      obtain ⟨hparen₁, hdepth⟩ := OnState.step_paren hparen hstep
      obtain ⟨ts, hlex, hrun, hblank, -⟩ := ih a st₁ hrest_a hparen₁ (h ▸ hloop)
      rw [hdepth] at hlex hblank
      refine ⟨tok :: ts, .token hc htok hlex, ?_, fun hb => hblank (hb.behind hc htok), hc⟩
      rw [List.foldlM_cons, hstep]
      exact hrun
    | @line tok a a' st₁ htok hstep ha hskip hle hlt hopen h =>
      obtain ⟨-, -, -, hc⟩ := onTokenAt_lt hT htok
      obtain ⟨hparen₁, hdepth⟩ := OnState.step_paren hparen hstep
      obtain ⟨ts, hlex, hrun, hblank, htoken⟩ := ih _ st₁ (.inl ⟨a', rfl⟩) hparen₁ (h ▸ hloop)
      rw [hdepth] at hlex hblank hopen
      refine ⟨tok :: ts, .token hc htok (.line ha hopen hskip hlt hlex), ?_, fun hb => ?_, hc⟩
      · rw [List.foldlM_cons, hstep]
        exact hrun
      · cases hb.behind hc htok with
        | here _ _ hskip' _ hblank' =>
          rw [hskip] at hskip'
          cases hskip'
          rw [htoken] at hblank'
          cases hblank'
        | token ha' => rw [ha] at ha'; cases ha'
        | line _ _ hskip' _ hb =>
          rw [hskip] at hskip'
          cases hskip'
          exact hblank hb
    | @last tok a a' st₁ htok hstep ha hskip hend h =>
      obtain ⟨-, -, -, hc⟩ := onTokenAt_lt hT htok
      obtain ⟨hparen₁, hdepth⟩ := OnState.step_paren hparen hstep
      rw [hloop] at h
      cases h
      rw [hdepth] at hend
      refine ⟨[tok], .token hc htok (.done ha hskip hend), ?_, fun hb => ?_, hc⟩
      · rw [List.foldlM_cons, hstep]
        rfl
      · have hnot : ∀ {b}, T.skipComment file a = (true, b) → tok.depth st.paren ≠ 0 →
            b.pos < file.length → False := by
          intro b hskip' hdepth' hlt
          rw [hskip] at hskip'
          cases hskip'
          rcases hend with hend | hend
          · exact hdepth' hend
          · omega
        cases hb.behind hc htok with
        | here _ hdepth' hskip' hlt => exact hnot hskip' hdepth' hlt
        | token ha' => rw [ha] at ha'; cases ha'
        | line _ hdepth' hskip' hlt => exact hnot hskip' hdepth' hlt

/-- Where no line within parentheses is blank, the loop reads all tokens. -/
theorem parseOnLoop_reads (hT : T.Lawful file) (hnul : StepsOverNul T file) :
    ∀ c st ts, Rests T file c → st.paren = openParens st.stack →
      Lexed T file st.paren c ts → T.hasToken file c = true → ¬ BlankInside T file st.paren c →
      ts.foldlM OnState.step st = .ok st' → file.length - c.pos < fuel →
      ∃ on mark, parseOnLoop T file fuel c st = (.ok st', on, mark) := by
  induction fuel with
  | zero => exact fun _ _ _ _ _ _ _ _ _ h => absurd h (Nat.not_lt_zero _)
  | succ fuel ih =>
    intro c st ts hrest hparen hlex hc hblank hrun hfuel
    cases hlex with
    | line hc' => rw [hc] at hc'; cases hc'
    | done hc' => rw [hc] at hc'; cases hc'
    | @token _ _ tok a ts _ htok hlex =>
      obtain ⟨hend, hlt, hrest_a, -⟩ := onTokenAt_lt hT htok
      rw [List.foldlM_cons] at hrun
      obtain ⟨st₁, hstep, hrun⟩ := bind_ok hrun
      obtain ⟨hparen₁, hdepth⟩ := OnState.step_paren hparen hstep
      have hblank_a : ¬ BlankInside T file st₁.paren a := by
        rw [hdepth]
        exact fun hb => hblank (.token hc htok hb)
      rw [← hdepth] at hlex
      cases parseOnLoop_cases hT hnul hrest fuel st with
      | noToken htok' => rw [htok] at htok'; cases htok'
      | error htok' hstep' =>
        rw [htok] at htok'
        cases htok'
        rw [hstep] at hstep'
        cases hstep'
      | next htok' hstep' ha h =>
        rw [htok] at htok'
        cases htok'
        rw [hstep] at hstep'
        cases hstep'
        rw [h]
        exact ih a st₁ ts hrest_a hparen₁ hlex ha hblank_a hrun (by omega)
      | @line _ _ a' _ htok' hstep' ha hskip hle hlt' hopen h =>
        rw [htok] at htok'
        cases htok'
        rw [hstep] at hstep'
        cases hstep'
        rw [h]
        cases hlex with
        | token ha' => rw [ha] at ha'; cases ha'
        | done _ hskip' hend' =>
          rw [hskip] at hskip'
          cases hskip'
          rcases hend' with hend' | hend'
          · exact absurd hend' hopen
          · omega
        | line _ hopen' hskip' hlt'' hlex =>
          rw [hskip] at hskip'
          cases hskip'
          have htoken : T.hasToken file (T.skipWhitespace file a') = true := by
            by_contra hnone
            exact hblank_a (.here ha hopen hskip hlt' (Bool.eq_false_iff.mpr hnone))
          have hle' := hT.skipWhitespace_le a'
          exact ih _ st₁ ts (.inl ⟨a', rfl⟩) hparen₁ hlex htoken
            (fun hb => hblank_a (.line ha hopen hskip hlt' hb)) hrun (by omega)
      | @last _ _ a' _ htok' hstep' ha hskip hend' h =>
        rw [htok] at htok'
        cases htok'
        rw [hstep] at hstep'
        cases hstep'
        cases hlex with
        | token ha' => rw [ha] at ha'; cases ha'
        | done =>
          cases hrun
          exact ⟨a', c, h⟩
        | line _ hopen' hskip' hlt' =>
          rw [hskip] at hskip'
          cases hskip'
          rcases hend' with hend' | hend'
          · exact absurd hend' hopen'
          · omega

/-- The loops end, and no assertion fails. -/
theorem parseOnLoop_raised (hT : T.Lawful file) (hnul : StepsOverNul T file) :
    ∀ c st, Rests T file c → file.length - c.pos < fuel →
      (∃ st', (parseOnLoop T file fuel c st).1 = .ok st') ∨
        ∃ e, (parseOnLoop T file fuel c st).1 = .error (.raised e) := by
  induction fuel with
  | zero => exact fun _ _ _ h => absurd h (Nat.not_lt_zero _)
  | succ fuel ih =>
    intro c st hrest hfuel
    cases parseOnLoop_cases hT hnul hrest fuel st with
    | noToken htok h => exact .inr ⟨_, h⟩
    | error htok hstep h => exact .inr ⟨_, h⟩
    | @next tok a st₁ htok hstep ha h =>
      obtain ⟨hend, hlt, hrest_a, -⟩ := onTokenAt_lt hT htok
      rw [h]
      exact ih a st₁ hrest_a (by omega)
    | @line tok a a' st₁ htok hstep ha hskip hle hlt' hopen h =>
      obtain ⟨hend, hlt, -, -⟩ := onTokenAt_lt hT htok
      have hle' := hT.skipWhitespace_le a'
      rw [h]
      exact ih _ st₁ (.inl ⟨a', rfl⟩) (by omega)
    | last htok hstep ha hskip hend h => exact .inl ⟨_, by rw [h]⟩

/-! ## `parse_on` -/

/-- The text of a condition derives from the grammar, with this tree. -/
def Specified (T : Tokeniser) (file : List Char) (c : Cursor) (tree : EventOperator) : Prop :=
  ∃ ts, Lexed T file 0 (T.skipWhitespace file c) ts ∧ Derives .expr ts tree

/-- `parse_on` returns the tree of the text if it has one, and raises an error if not. -/
def ParsesAsSpecified (T : Tokeniser) (file : List Char) (c : Cursor) : Prop :=
  (∀ tree, (parseOn T file c).1 = .ok tree ↔ Specified T file c tree) ∧
    ∀ fault, (parseOn T file c).1 = .error fault → ∃ e, fault = .raised e

/-- The end of `parse_on` is that of the stack. -/
theorem parseOn_finish {r : Except OnFault OnState}
    (h : parseOnLoop T file (file.length + 1) (T.skipWhitespace file c) onStart = (r, on, mark)) :
    (parseOn T file c).1 = r >>= fun st => raise st.finish := by
  unfold parseOn
  rw [h]
  cases r with
  | error e => rfl
  | ok st =>
    have hbind : (Except.ok st >>= fun st : OnState => raise st.finish) = raise st.finish := rfl
    rw [hbind]
    dsimp only
    unfold OnState.finish
    cases parseOnCollect st.stack st.root with
    | error e => rfl
    | ok p =>
      obtain ⟨stack, root⟩ := p
      show (if stack.isEmpty = true then _ else _ : Except OnFault EventOperator × Cursor).1 =
        raise (if stack.isEmpty = true then _ else _)
      split
      · rfl
      · rfl

theorem raise_eq_ok {α : Type} {r : Except OnError α} {a : α} (h : raise r = .ok a) : r = .ok a := by
  cases r with
  | error e => cases h
  | ok b => cases h; rfl

theorem Derives.ne_nil {sort : OnSort} {t : EventOperator} (h : Derives sort ts t) : ts ≠ [] := by
  induction h with
  | event => exact List.cons_ne_nil _ _
  | group => exact List.cons_ne_nil _ _
  | single _ ih => exact ih
  | operator => simp

/-- What `parse_on` returns is the tree of its tokens, and no line in it is blank. -/
theorem parseOn_ok (hT : T.Lawful file) (hnul : StepsOverNul T file) {tree : EventOperator}
    (h : (parseOn T file c).1 = .ok tree) :
    Specified T file c tree ∧ ¬ BlankInside T file 0 (T.skipWhitespace file c) := by
  cases hloop : parseOnLoop T file (file.length + 1) (T.skipWhitespace file c) onStart with
  | mk r cursors =>
    obtain ⟨on, mark⟩ := cursors
    rw [parseOn_finish hloop] at h
    cases r with
    | error e => cases h
    | ok st =>
      obtain ⟨ts, hlex, hrun, hblank, -⟩ :=
        parseOnLoop_lexed hT hnul (T.skipWhitespace file c) onStart (.inl ⟨c, rfl⟩) rfl hloop
      have hfinish := raise_eq_ok h
      have htokens : parseTokens ts = .ok tree := by
        rw [parseTokens, hrun]
        exact hfinish
      exact ⟨⟨ts, hlex, (parseTokens_iff ts tree).mp htokens⟩, hblank⟩

/-- Where no line is blank, `parse_on` returns the tree. -/
theorem parseOn_specified (hT : T.Lawful file) (hnul : StepsOverNul T file)
    (hblank : ¬ BlankInside T file 0 (T.skipWhitespace file c)) {tree : EventOperator}
    (h : Specified T file c tree) : (parseOn T file c).1 = .ok tree := by
  obtain ⟨ts, hlex, hderives⟩ := h
  obtain ⟨st, hrun, hfinish⟩ := bind_ok ((parseTokens_iff ts tree).mpr hderives)
  have hc : T.hasToken file (T.skipWhitespace file c) = true := by
    cases hlex with
    | token hc => exact hc
    | line _ hdepth => exact absurd rfl hdepth
    | done => exact absurd rfl hderives.ne_nil
  obtain ⟨on, mark, hloop⟩ := parseOnLoop_reads hT hnul (T.skipWhitespace file c) onStart ts
    (.inl ⟨c, rfl⟩) rfl hlex hc hblank hrun (by omega : _ < file.length + 1)
  rw [parseOn_finish hloop]
  show raise st.finish = _
  rw [hfinish]
  rfl

/-- `parse_on` reads the grammar exactly where a condition that derives has no blank line, and
no line with only a comment, within its parentheses. -/
theorem parseOn_iff (T : Tokeniser) (file : List Char) (c : Cursor) (hT : T.Lawful file)
    (hnul : StepsOverNul T file) :
    ParsesAsSpecified T file c ↔
      ((∃ tree, Specified T file c tree) →
        ¬ BlankInside T file 0 (T.skipWhitespace file c)) := by
  constructor
  · rintro h ⟨tree, hspec⟩
    exact (parseOn_ok hT hnul ((h.1 tree).mpr hspec)).2
  · intro hblank
    refine ⟨fun tree => ⟨fun h => (parseOn_ok hT hnul h).1, fun h => ?_⟩, fun fault h => ?_⟩
    · exact parseOn_specified hT hnul (hblank ⟨tree, h⟩) h
    · cases hloop : parseOnLoop T file (file.length + 1) (T.skipWhitespace file c) onStart with
      | mk r cursors =>
        obtain ⟨on, mark⟩ := cursors
        have hraised := parseOnLoop_raised hT hnul (T.skipWhitespace file c) onStart
          (.inl ⟨c, rfl⟩) (by omega : _ < file.length + 1)
        rw [parseOn_finish hloop] at h
        rw [hloop] at hraised
        rcases hraised with ⟨st, hr⟩ | ⟨e, hr⟩
        · cases hr
          have h : raise st.finish = .error fault := h
          cases hfinish : st.finish with
          | ok tree =>
            rw [hfinish] at h
            cases h
          | error e =>
            rw [hfinish] at h
            cases h
            exact ⟨e, rfl⟩
        · cases hr
          cases h
          exact ⟨e, rfl⟩

/-! ## A tokeniser -/

/-- A tokeniser for texts without quotes and backslashes. -/
def plainTokeniser : Tokeniser where
  skipWhitespace file c :=
    { c with pos := scanTo (fun ch => !strchr [' ', '\t', '\r'] ch) file c.pos }
  hasToken file c := c.pos < file.length && !strchr ['#', '\n'] (charAt file c.pos)
  nextToken file c _ :=
    let last := scanTo (strchr ['(', ')', ' ', '\t', '\r', '#', '\n']) file c.pos
    if last = c.pos then (none, c)
    else (some (String.ofList (slice file c.pos last)),
      { c with pos := scanTo (fun ch => !strchr [' ', '\t', '\r'] ch) file last })
  skipComment file c :=
    let last := if charAt file c.pos = '#' then scanTo (· == '\n') file c.pos else c.pos
    if file.length ≤ last then (true, { c with pos := last })
    else if charAt file last = '\n' then (true, ⟨last + 1, c.lineno + 1⟩)
    else (false, { c with pos := last })

theorem scanTo_of_end {stop : Char → Bool} {i : Nat} (h : file.length ≤ i) :
    scanTo stop file i = i := by
  rw [scanTo, List.drop_of_length_le h]
  rfl

/-- A scan ends at a character that stops it. -/
theorem scanTo_stop {stop : Char → Bool} (n : Nat) :
    ∀ i, file.length - i < n → scanTo stop file i < file.length →
      stop (charAt file (scanTo stop file i)) = true := by
  induction n with
  | zero => exact fun _ h => absurd h (Nat.not_lt_zero _)
  | succ n ih =>
    intro i hn hlt
    have hi : i < file.length := Nat.lt_of_le_of_lt (Nat.le_add_right _ _) hlt
    by_cases hc : stop (charAt file i) = true
    · rwa [scanTo_here (Nat.le_of_lt hi) hc]
    · rw [scanTo_next hi (Bool.eq_false_iff.mpr hc)] at hlt ⊢
      exact ih (i + 1) (by omega) hlt

theorem plainTokeniser_hasToken (h : plainTokeniser.hasToken file c = false) :
    file.length ≤ c.pos ∨ charAt file c.pos = '#' ∨ charAt file c.pos = '\n' ∨
      charAt file c.pos = '\x00' := by
  by_cases hlt : c.pos < file.length
  · right
    have h : (decide (c.pos < file.length) && !strchr ['#', '\n'] (charAt file c.pos)) = false := h
    have hstop : strchr ['#', '\n'] (charAt file c.pos) = true := by
      simpa [hlt] using h
    have hmem : (charAt file c.pos = '#' ∨ charAt file c.pos = '\n') ∨
        charAt file c.pos = '\x00' := by
      simpa only [strchr, Bool.or_eq_true, List.contains_iff_mem, List.mem_cons, List.not_mem_nil,
        or_false, beq_iff_eq] using hstop
    exact or_assoc.mp hmem
  · exact .inl (Nat.le_of_not_lt hlt)

theorem plainTokeniser_lawful (file : List Char) : plainTokeniser.Lawful file where
  skipWhitespace_le c := Nat.le_add_right _ _
  hasToken_paren c hc hparen := by
    show (decide (c.pos < file.length) && !strchr ['#', '\n'] (charAt file c.pos)) = true
    rcases hparen with hparen | hparen
    · simp [hc, hparen, strchr]
    · simp [hc, hparen, strchr]
  nextToken_none c dequote h := by
    have hlast : scanTo (strchr ['(', ')', ' ', '\t', '\r', '#', '\n']) file c.pos = c.pos := by
      rcases Nat.lt_or_ge c.pos file.length with hlt | hge
      · refine scanTo_here (Nat.le_of_lt hlt) ?_
        rcases plainTokeniser_hasToken h with hend | hchar | hchar | hchar
        · omega
        all_goals rw [hchar]; decide
      · exact scanTo_of_end hge
    simp only [plainTokeniser, hlast, if_pos]
  nextToken_lt c a dequote arg h := by
    have hge : c.pos ≤ scanTo (strchr ['(', ')', ' ', '\t', '\r', '#', '\n']) file c.pos :=
      Nat.le_add_right _ _
    simp only [plainTokeniser] at h
    split at h
    · cases h
    · rename_i hne
      cases h
      refine ⟨?_, ?_⟩
      · show c.pos < scanTo _ file _
        exact Nat.lt_of_lt_of_le (Nat.lt_of_le_of_ne hge (Ne.symm hne)) (Nat.le_add_right _ _)
      · by_contra hend
        exact hne (scanTo_of_end (Nat.le_of_not_lt hend))
  skipComment_ok c h hnul := by
    simp only [plainTokeniser]
    by_cases hhash : charAt file c.pos = '#'
    · rw [if_pos hhash]
      have hge : c.pos ≤ scanTo (· == '\n') file c.pos := Nat.le_add_right _ _
      by_cases hend : file.length ≤ scanTo (· == '\n') file c.pos
      · rw [if_pos hend]
        exact ⟨_, rfl, hge⟩
      · have hstop := scanTo_stop (file.length - c.pos + 1) c.pos (Nat.lt_succ_self _)
          (Nat.lt_of_not_le hend)
        rw [if_neg hend, if_pos (beq_iff_eq.mp hstop)]
        exact ⟨_, rfl, Nat.le_succ_of_le hge⟩
    · rw [if_neg hhash]
      by_cases hend : file.length ≤ c.pos
      · rw [if_pos hend]
        exact ⟨_, rfl, Nat.le_refl _⟩
      · have hline : charAt file c.pos = '\n' := by
          rcases plainTokeniser_hasToken h with hend' | hchar | hchar | hchar
          · exact absurd hend' hend
          · exact absurd hchar hhash
          · exact hchar
          · exact absurd hchar (hnul (Nat.lt_of_not_le hend))
        rw [if_neg hend, if_pos hline]
        exact ⟨_, rfl, Nat.le_succ _⟩

theorem plainTokeniser_nul (file : List Char) : StepsOverNul plainTokeniser file := by
  have hwhite : ∀ i, scanTo (fun ch => !strchr [' ', '\t', '\r'] ch) file i < file.length →
      charAt file (scanTo (fun ch => !strchr [' ', '\t', '\r'] ch) file i) ≠ '\x00' := by
    intro i hlt hchar
    have hstop := scanTo_stop (file.length - i + 1) i (Nat.lt_succ_self _) hlt
    rw [hchar] at hstop
    exact absurd hstop (by decide)
  rintro c (⟨c', rfl⟩ | ⟨c', dequote, arg, h⟩) hlt
  · exact hwhite _ hlt
  · simp only [plainTokeniser] at h
    split at h
    · cases h
    · cases h
      exact hwhite _ hlt

/-- A condition on two lines. -/
theorem parseOn_iff_twoLines :
    ParsesAsSpecified plainTokeniser "(a X=1\n or b) # c\n".toList ⟨0, 1⟩ ↔
      ((∃ tree, Specified plainTokeniser "(a X=1\n or b) # c\n".toList ⟨0, 1⟩ tree) →
        ¬ BlankInside plainTokeniser "(a X=1\n or b) # c\n".toList 0 ⟨0, 1⟩) :=
  parseOn_iff plainTokeniser "(a X=1\n or b) # c\n".toList ⟨0, 1⟩ (plainTokeniser_lawful _)
    (plainTokeniser_nul _)

/-- A blank line within parentheses is an error. -/
theorem blankLine_not_parsed :
    ∃ file c, plainTokeniser.Lawful file ∧ StepsOverNul plainTokeniser file ∧
      (parseOn plainTokeniser file c).1 = .error (.raised .token) ∧
      ∃ tree, Specified plainTokeniser file c tree := by
  refine ⟨"(\n\na)".toList, ⟨0, 1⟩, plainTokeniser_lawful _, plainTokeniser_nul _, by decide,
    .eventMatch "a" [] false none, [.openParen, .word "a", .closeParen], ?_, ?_⟩
  · have hclose : Lexed plainTokeniser "(\n\na)".toList 1 ⟨4, 3⟩ [.closeParen] :=
      .token (by decide) (a := ⟨5, 3⟩) (by decide)
        (.done (by decide) (a := ⟨5, 3⟩) (by decide) (.inl rfl))
    have hword : Lexed plainTokeniser "(\n\na)".toList 1 ⟨3, 3⟩ [.word "a", .closeParen] :=
      .token (by decide) (a := ⟨4, 3⟩) (by decide) hclose
    have hblank : Lexed plainTokeniser "(\n\na)".toList 1 ⟨2, 2⟩ [.word "a", .closeParen] :=
      .line (by decide) (by decide) (a := ⟨3, 3⟩) (by decide) (by decide) hword
    exact .token (by decide) (a := ⟨1, 1⟩) (by decide)
      (.line (by decide) (by decide) (a := ⟨2, 2⟩) (by decide) (by decide) hblank)
  · exact .single (.group (.single (.event "a" [] List.Pairwise.nil)))

end Startup.ParseJob
