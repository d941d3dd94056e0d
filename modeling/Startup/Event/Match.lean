import Startup.Event.Operator
import Startup.Environ.Table

/-!
# Matching an event (`init/event_operator.c`)

`event_operator_match` looks for `!=` anywhere in an argument before it looks for
`=`.  An argument with `!=` in its value is not split at its first `=`.

* `documentedSplit`: where an argument is to be split;
* `AllSatisfied`: when the arguments of an operator are satisfied by an event;
* `splitArgument_iff`: which arguments `event_operator_match` splits so;
* `eventOperatorMatch_iff`: what it returns for them.
-/

namespace Startup

variable {x : Host} {eventEnv env : List String} {arg : List Char}

/-! ## What an operator is to match -/

/-- The split of an argument at its first `=`: the length of the name, whether the
comparison is negated, and where the value starts. -/
def documentedSplit (arg : List Char) : Option (Nat × Bool × Nat) :=
  (arg.findIdx? (· = '=')).map fun i =>
    if 0 < i ∧ arg[i - 1]? = some '!' then (i - 1, true, i + 1) else (i, false, i + 1)

/-- The variable of the event at a position has a value that the glob of an argument
matches, or does not match where the comparison is negated. -/
def GlobMatches (x : Host) (eventEnv env : List String) (negate : Bool) (glob : List Char)
    (i : Nat) : Prop :=
  ∃ e pattern, eventEnv[i]? = some e ∧ environExpand (String.ofList glob) env = .ok pattern ∧
    x.fnmatch pattern (String.ofList (entryValue e)) = !negate

/-- An argument is satisfied by the variable of the event at `i`: the one that it names, or
the one at its own position `pos`. -/
def ArgumentSatisfied (x : Host) (eventEnv env : List String) (arg : List Char) (pos i : Nat) :
    Prop :=
  match documentedSplit arg with
  | none => i = pos ∧ GlobMatches x eventEnv env false arg i
  | some (len, negate, start) =>
    eventEnv.findIdx? (fun e => entryKey e = arg.take len) = some i ∧
      GlobMatches x eventEnv env negate (arg.drop start) i

/-- Every argument is satisfied, the positional ones from the position `pos` on. -/
def AllSatisfied (x : Host) (eventEnv env : List String) : List String → Nat → Prop
  | [], _ => True
  | arg :: args, pos =>
    ∃ i, ArgumentSatisfied x eventEnv env arg.toList pos i ∧
      AllSatisfied x eventEnv env args (i + 1)

/-! ## The split of an argument -/

/-- There is no `=` before the first `!=`. -/
def OperatorFirst (arg : List Char) : Prop := ∀ i, findNotEq arg = some i → '=' ∉ arg.take i

theorem findNotEq_some {i : Nat} (h : findNotEq arg = some i) :
    arg[i]? = some '!' ∧ arg[i + 1]? = some '=' := by
  fun_induction findNotEq arg generalizing i with
  | case1 => cases h
  | case2 => cases h
  | case3 a b rest hab =>
    cases h
    simp [hab.1, hab.2]
  | case4 a b rest hab ih =>
    obtain ⟨j, hj, rfl⟩ := Option.map_eq_some_iff.mp h
    exact ih hj

theorem findNotEq_none (h : findNotEq arg = none) (i : Nat) :
    ¬ (arg[i]? = some '!' ∧ arg[i + 1]? = some '=') := by
  fun_induction findNotEq arg generalizing i with
  | case1 => simp
  | case2 => simp
  | case3 => cases h
  | case4 a b rest hab ih =>
    cases i with
    | zero => simpa using hab
    | succ i => exact ih (Option.map_eq_none_iff.mp h) i

theorem findIdx?_equals {i : Nat} :
    arg.findIdx? (· = '=') = some i ↔ arg[i]? = some '=' ∧ '=' ∉ arg.take i := by
  rw [List.findIdx?_eq_some_iff_getElem, List.mem_take_iff_getElem]
  constructor
  · rintro ⟨hi, hequals, hbefore⟩
    refine ⟨by simpa [hi] using hequals, ?_⟩
    rintro ⟨j, hj, heq⟩
    exact hbefore j (by omega) (by simpa using heq)
  · rintro ⟨hequals, hbefore⟩
    obtain ⟨hi, heq⟩ := List.getElem?_eq_some_iff.mp hequals
    refine ⟨hi, by simpa using heq, fun j hj heq => hbefore ⟨j, by omega, ?_⟩⟩
    simpa using heq

/-- An argument is split at its first `=` exactly when no `!=` stands behind that. -/
theorem splitArgument_iff (arg : List Char) :
    splitArgument arg = documentedSplit arg ↔ OperatorFirst arg := by
  unfold splitArgument documentedSplit OperatorFirst
  cases hfind : findNotEq arg with
  | none =>
    refine iff_of_true ?_ nofun
    dsimp only
    cases hidx : arg.findIdx? (· = '=') with
    | none => rfl
    | some i =>
      have hequals := (findIdx?_equals.mp hidx).1
      have hnot : ¬ (0 < i ∧ arg[i - 1]? = some '!') := by
        rintro ⟨hpos, hbang⟩
        refine findNotEq_none hfind (i - 1) ⟨hbang, ?_⟩
        rwa [Nat.sub_add_cancel hpos]
      simp [hnot]
  | some i =>
    obtain ⟨hbang, hequals⟩ := findNotEq_some hfind
    constructor
    · rintro heq j ⟨rfl⟩ hmem
      obtain ⟨j, hj, htuple⟩ := Option.map_eq_some_iff.mp heq.symm
      split at htuple
      · rename_i hneg
        have hlen : j - 1 = i := congrArg Prod.fst htuple
        have hsub : arg.take i ⊆ arg.take j :=
          (List.take_prefix_take_left (by omega)).subset
        exact (findIdx?_equals.mp hj).2 (hsub hmem)
      · cases htuple
    · intro hfirst
      have hidx : arg.findIdx? (· = '=') = some (i + 1) := by
        refine findIdx?_equals.mpr ⟨hequals, ?_⟩
        rw [List.take_add_one, hbang]
        simpa using hfirst i rfl
      rw [hidx]
      simp [hbang]

/-! ## What matches -/

/-- A name has no `=`. -/
theorem documentedSplit_name {len start : Nat} {negate : Bool}
    (h : documentedSplit arg = some (len, negate, start)) : '=' ∉ arg.take len := by
  obtain ⟨i, hi, htuple⟩ := Option.map_eq_some_iff.mp h
  have hbefore := (findIdx?_equals.mp hi).2
  split at htuple <;> cases htuple
  · have hsub : arg.take (i - 1) ⊆ arg.take i := (List.take_prefix_take_left (by omega)).subset
    exact fun hmem => hbefore (hsub hmem)
  · exact hbefore

/-- `environ_lookup` of a name finds the first entry that has it as its key. -/
theorem environLookup_eq_findIdx? {key : List Char} (hv : environAllValid eventEnv = true)
    (hkey : '=' ∉ key) :
    environLookup eventEnv key = eventEnv.findIdx? fun e => entryKey e = key := by
  have hentry : entryKey (String.ofList key) = key := by
    rw [entryKey, String.toList_ofList, takeWhile_eq_self hkey]
  have hsame : ∀ e ∈ eventEnv, (key ++ ['=']).isPrefixOf e.toList = decide (entryKey e = key) := by
    intro e he
    rw [← hentry, Bool.eq_iff_iff, isPrefixOf_entry (List.all_eq_true.mp hv e he),
      decide_eq_true_iff]
  clear hv
  unfold environLookup
  induction eventEnv with
  | nil => rfl
  | cons e es ih =>
    rw [List.findIdx?_cons, List.findIdx?_cons, hsame e List.mem_cons_self,
      ih fun e he => hsame e (List.mem_cons_of_mem _ he)]

/-- The arguments that the loop of `event_operator_match` comes to are split where they are
to be. -/
def SplitRight (x : Host) (eventEnv env : List String) : List String → Nat → Prop
  | [], _ => True
  | arg :: args, pos =>
    OperatorFirst arg.toList ∧ ∀ i, ArgumentSatisfied x eventEnv env arg.toList pos i →
      SplitRight x eventEnv env args (i + 1)

/-- The comparison of `event_operator_match` with the variable at `i`. -/
def globMatches (x : Host) (eventEnv env : List String) (negate : Bool) (glob : List Char)
    (i : Nat) : Bool :=
  match eventEnv[i]?, environExpand (String.ofList glob) env with
  | some e, .ok pattern => x.fnmatch pattern (String.ofList (entryValue e)) == !negate
  | _, _ => false

theorem globMatches_iff {negate : Bool} {glob : List Char} {i : Nat} :
    globMatches x eventEnv env negate glob i = true ↔ GlobMatches x eventEnv env negate glob i := by
  unfold globMatches GlobMatches
  cases heq : eventEnv[i]? with
  | none => simp
  | some e =>
    cases environExpand (String.ofList glob) env with
    | error err => simp
    | ok pattern =>
      constructor
      · intro h
        exact ⟨e, pattern, rfl, rfl, beq_iff_eq.mp h⟩
      · rintro ⟨_, _, ⟨⟩, ⟨⟩, h⟩
        exact beq_iff_eq.mpr h

/-- The loop goes on behind a variable that matches. -/
theorem globMatches_and (x : Host) (eventEnv env : List String) (negate : Bool) (glob : List Char)
    (i : Nat) (rest : Bool) :
    (match eventEnv[i]? with
      | none => false
      | some e =>
        match environExpand (String.ofList glob) env with
        | .error _ => false
        | .ok expoval =>
          if (x.fnmatch expoval (String.ofList (entryValue e))) = negate then false else rest) =
      (globMatches x eventEnv env negate glob i && rest) := by
  unfold globMatches
  cases eventEnv[i]? with
  | none => rfl
  | some e =>
    cases environExpand (String.ofList glob) env with
    | error err => rfl
    | ok pattern =>
      dsimp only
      cases x.fnmatch pattern (String.ofList (entryValue e)) <;> cases negate <;> rfl

/-- One argument, and the rest of them. -/
theorem matchArguments_cons (x : Host) (eventEnv env : List String) (arg : String)
    (args : List String) (pos : Nat) :
    matchArguments x eventEnv env (arg :: args) pos =
      match splitArgument arg.toList with
      | none =>
        globMatches x eventEnv env false arg.toList pos &&
          matchArguments x eventEnv env args (pos + 1)
      | some (len, negate, start) =>
        match environLookup eventEnv (arg.toList.take len) with
        | none => false
        | some i =>
          globMatches x eventEnv env negate (arg.toList.drop start) i &&
            matchArguments x eventEnv env args (i + 1) := by
  have hcompare := fun negate glob i =>
    globMatches_and x eventEnv env negate glob i (matchArguments x eventEnv env args (i + 1))
  conv_lhs => whnf
  -- the branches are compared without evaluating the expansion of the glob
  generalize environExpand = expand at hcompare ⊢
  cases splitArgument arg.toList with
  | none =>
    dsimp only
    rw [List.drop_zero]
    exact hcompare false arg.toList pos
  | some split =>
    obtain ⟨len, negate, start⟩ := split
    dsimp only
    cases environLookup eventEnv (arg.toList.take len) with
    | none => rfl
    | some i => exact hcompare negate (arg.toList.drop start) i

/-- An argument that is split where it is to be. -/
theorem matchArguments_cons_iff (x : Host) (env : List String)
    (hv : environAllValid eventEnv = true) (arg : String) (args : List String) (pos : Nat)
    (hsplit : OperatorFirst arg.toList) :
    matchArguments x eventEnv env (arg :: args) pos = true ↔
      ∃ i, ArgumentSatisfied x eventEnv env arg.toList pos i ∧
        matchArguments x eventEnv env args (i + 1) = true := by
  rw [matchArguments_cons, (splitArgument_iff arg.toList).mpr hsplit]
  unfold ArgumentSatisfied
  cases hdoc : documentedSplit arg.toList with
  | none =>
    dsimp only
    rw [Bool.and_eq_true, globMatches_iff]
    constructor
    · rintro ⟨hmatch, hrest⟩
      exact ⟨pos, ⟨rfl, hmatch⟩, hrest⟩
    · rintro ⟨i, ⟨rfl, hmatch⟩, hrest⟩
      exact ⟨hmatch, hrest⟩
  | some split =>
    obtain ⟨len, negate, start⟩ := split
    dsimp only
    rw [environLookup_eq_findIdx? hv (documentedSplit_name hdoc)]
    cases eventEnv.findIdx? fun e => entryKey e = arg.toList.take len with
    | none => simp
    | some i =>
      dsimp only
      rw [Bool.and_eq_true, globMatches_iff]
      constructor
      · rintro ⟨hmatch, hrest⟩
        exact ⟨i, ⟨rfl, hmatch⟩, hrest⟩
      · rintro ⟨j, ⟨hj, hmatch⟩, hrest⟩
        cases hj
        exact ⟨hmatch, hrest⟩

theorem matchArguments_iff (x : Host) (env : List String) (hv : environAllValid eventEnv = true)
    (args : List String) (pos : Nat) (hsplit : SplitRight x eventEnv env args pos) :
    matchArguments x eventEnv env args pos = true ↔ AllSatisfied x eventEnv env args pos := by
  induction args generalizing pos with
  | nil => exact iff_of_true rfl trivial
  | cons arg args ih =>
    rw [matchArguments_cons_iff x env hv arg args pos hsplit.1, AllSatisfied]
    refine exists_congr fun i => and_congr_right fun hi => ?_
    exact ih (i + 1) (hsplit.2 i hi)

/-- An argument is split at its first `=` exactly when no `!=` stands behind that; and for
every operator, event and environment, where the arguments that are come to are such ones,
the operator matches exactly when the names are equal and every argument is satisfied. -/
theorem eventOperatorMatch_iff (x : Host) (name : String) (oenv : List String) (event : Event)
    (env : List String) :
    (∀ arg, splitArgument arg = documentedSplit arg ↔ OperatorFirst arg) ∧
    ((name = event.name → SplitRight x event.env env oenv 0) →
      (eventOperatorMatch x name oenv event env = true ↔
        name = event.name ∧ AllSatisfied x event.env env oenv 0)) := by
  refine ⟨splitArgument_iff, fun hsplit => ?_⟩
  rw [eventOperatorMatch, Bool.and_eq_true, beq_iff_eq]
  refine and_congr_right fun hname => ?_
  exact matchArguments_iff x env event.valid oenv 0 (hsplit hname)

/-- An event with one variable. -/
def fileEvent (value : String) : Event where
  id := 1
  name := "file"
  env := ["KEY=" ++ value]
  fd := -1
  progress := .pending
  failed := false
  blockers := 0
  blocking := []
  valid := by simp [environAllValid, hasValue]

/-- A plain argument and a negated one. -/
theorem eventOperatorMatch_iff_plain :
    eventOperatorMatch plainHost "file" ["KEY=a", "KEY!=b"] (fileEvent "a") [] = true ↔
      "file" = (fileEvent "a").name ∧
        AllSatisfied plainHost (fileEvent "a").env [] ["KEY=a", "KEY!=b"] 0 := by
  refine (eventOperatorMatch_iff plainHost "file" ["KEY=a", "KEY!=b"] (fileEvent "a") []).2 ?_
  refine fun _ => ⟨?_, fun _ _ => ⟨?_, fun _ _ => trivial⟩⟩
  · rintro i ⟨⟩
  · rintro i ⟨⟩
    decide

/-- The argument `KEY=a!=b` is not satisfied by the value `a!=b`. -/
theorem lateOperator_no_match :
    ∃ (name : String) (oenv : List String) (event : Event),
      eventOperatorMatch plainHost name oenv event [] = false ∧
      name = event.name ∧ AllSatisfied plainHost event.env [] oenv 0 := by
  refine ⟨"file", ["KEY=a!=b"], fileEvent "a!=b", by decide, rfl, 0, ?_, trivial⟩
  exact ⟨by decide, "KEY=a!=b", "a!=b", rfl, by decide, by decide⟩

end Startup
