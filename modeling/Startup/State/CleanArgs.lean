import Mathlib.Data.List.Basic
import Mathlib.Tactic.Common

/-!
# The arguments of the next instance (`init/state.c`)

`clean_args` takes the options of earlier re-execs out of an array of strings that ends with
`NULL`, in place.

* `cleanArgsIn`: the loop on the cells of the array;
* `cleaned`: the arguments that are to stay;
* `cleanArgsIn_eq`: the loop leaves these, unless the last `--state-fd` has no value; then it
  reads behind the array.
-/

namespace Startup

/-- `args[j]` where `j` is behind the terminating `NULL`, or a loop that is still going on. -/
inductive ArgsFault where
  | outside
  | running
  deriving DecidableEq

/-- The options for the log level. -/
def isLevel (arg : String) : Bool :=
  arg = "--debug" || arg = "--verbose" || arg = "--error"

/-- `args[j]`; nothing is read behind the terminating `NULL`. -/
def argAt (args : List (Option String)) (j : Nat) : Except ArgsFault (Option String) :=
  match args[j]? with
  | some arg => if none ∈ args.take j then .error .outside else .ok arg
  | none => .error .outside

/-- The loop that shuffles up the remaining arguments from `j` to `tmp`, and the `NULL` behind
them. -/
def shuffleUp : Nat → List (Option String) → Nat → Nat →
    Except ArgsFault (List (Option String))
  | 0, _, _, _ => .error .running
  | fuel + 1, args, tmp, j => do
    match ← argAt args j with
    | some arg => shuffleUp fuel (args.set tmp (some arg)) (tmp + 1) (j + 1)
    | none => .ok (args.set tmp none)

/-- The loop of `clean_args`, from `args[i]` on. -/
def cleanFrom : Nat → List (Option String) → Nat → Except ArgsFault (List (Option String))
  | 0, _, _ => .error .running
  | fuel + 1, args, i => do
    match ← argAt args i with
    | none => .ok args
    | some arg =>
      if arg = "--state-fd" then
        -- the value is freed as well, whether there is one or not
        let _ ← argAt args (i + 1)
        let args ← shuffleUp args.length args i (i + 2)
        cleanFrom fuel args i
      else if isLevel arg then
        let args ← shuffleUp args.length args i (i + 1)
        cleanFrom fuel args i
      else cleanFrom fuel args (i + 1)

/-- `clean_args` of the cells of an array. -/
def cleanArgsIn (args : List (Option String)) : Except ArgsFault (List (Option String)) :=
  cleanFrom args.length args 0

/-- The arguments up to the `NULL`. -/
def argsUpTo (args : List (Option String)) : List String :=
  (args.takeWhile Option.isSome).filterMap id

/-- `clean_args` of an array that has no more cells than it needs. -/
def cleanArgs (args : List String) : Except ArgsFault (List String) :=
  (cleanArgsIn (args.map some ++ [none])).map argsUpTo

/-! ## What is to stay -/

/-- The arguments without `--state-fd` and its values, and without the options for the log
level. -/
def cleaned : List String → List String
  | [] => []
  | [arg] => if arg = "--state-fd" ∨ isLevel arg then [] else [arg]
  | arg :: value :: args =>
    if arg = "--state-fd" then cleaned args
    else if isLevel arg then cleaned (value :: args)
    else arg :: cleaned (value :: args)

/-- The last `--state-fd` has no value. -/
def Dangling : List String → Prop
  | [] => False
  | [arg] => arg = "--state-fd"
  | arg :: value :: args => if arg = "--state-fd" then Dangling args else Dangling (value :: args)

/-- The arguments are cleaned, and nothing is read behind the `NULL`. -/
def CleansRight (args : List String) : Prop := cleanArgs args = .ok (cleaned args)

variable {done gap spare : List (Option String)} {rest : List String} {arg value : String}
  {fuel : Nat}

/-! ## Options -/

theorem cleaned_keep (rest : List String) (harg : arg ≠ "--state-fd")
    (hlevel : isLevel arg = false) : cleaned (arg :: rest) = arg :: cleaned rest := by
  cases rest with
  | nil => simp [cleaned, harg, hlevel]
  | cons value rest => simp [cleaned, harg, hlevel]

theorem cleaned_level (rest : List String) (harg : arg ≠ "--state-fd")
    (hlevel : isLevel arg = true) : cleaned (arg :: rest) = cleaned rest := by
  cases rest with
  | nil => simp [cleaned, hlevel]
  | cons value rest => simp [cleaned, harg, hlevel]

@[simp]
theorem cleaned_option (value : String) (rest : List String) :
    cleaned ("--state-fd" :: value :: rest) = cleaned rest := by
  simp [cleaned]

theorem dangling_cons (rest : List String) (harg : arg ≠ "--state-fd") :
    Dangling (arg :: rest) ↔ Dangling rest := by
  cases rest with
  | nil => simp [Dangling, harg]
  | cons value rest => simp [Dangling, harg]

@[simp]
theorem dangling_option (value : String) (rest : List String) :
    Dangling ("--state-fd" :: value :: rest) ↔ Dangling rest := by
  simp [Dangling]

/-! ## Cells -/

/-- A cell up to the terminating `NULL` is read. -/
theorem argAt_append (hdone : none ∉ done) (cell : Option String) (spare : List (Option String)) :
    argAt (done ++ cell :: spare) done.length = .ok cell := by
  have hcell : (done ++ cell :: spare)[done.length]? = some cell := by simp
  simp [argAt, hdone]

/-- The cell behind the `NULL` is not. -/
theorem argAt_behind (done spare : List (Option String)) :
    argAt (done ++ none :: spare) (done.length + 1) = .error .outside := by
  unfold argAt
  split
  · rw [if_pos]
    simp [List.take_append]
  · rfl

theorem none_not_mem_map_some (l : List String) : none ∉ l.map some := by simp

/-- One argument moves up over a gap. -/
theorem shuffleUp_next (fuel : Nat) (arg : String) {first : Option String}
    (tail : List (Option String)) (h : none ∉ done ++ first :: gap) :
    shuffleUp (fuel + 1) (done ++ (first :: gap ++ some arg :: tail)) done.length
        (done.length + (first :: gap).length) =
      shuffleUp fuel ((done ++ [some arg]) ++ (gap ++ [some arg] ++ tail))
        (done ++ [some arg]).length ((done ++ [some arg]).length + (gap ++ [some arg]).length) := by
  have hread := argAt_append h (some arg) tail
  rw [List.length_append, List.append_assoc] at hread
  have hset : (done ++ (first :: gap ++ some arg :: tail)).set done.length (some arg) =
      (done ++ [some arg]) ++ (gap ++ [some arg] ++ tail) := by simp
  have htmp : (done ++ [some arg]).length = done.length + 1 := by simp
  have hj : done.length + (first :: gap).length + 1 =
      (done ++ [some arg]).length + (gap ++ [some arg]).length := by
    simp only [List.length_append, List.length_cons, List.length_nil]
    omega
  rw [shuffleUp, hread, ← hset, ← hj, htmp]
  rfl

theorem shuffleUp_stop (fuel : Nat) {first : Option String} (h : none ∉ done ++ first :: gap) :
    shuffleUp (fuel + 1) (done ++ (first :: gap ++ none :: spare)) done.length
        (done.length + (first :: gap).length) =
      .ok (done ++ none :: (gap ++ none :: spare)) := by
  have hread := argAt_append h none spare
  rw [List.length_append, List.append_assoc] at hread
  have hset : (done ++ (first :: gap ++ none :: spare)).set done.length none =
      done ++ none :: (gap ++ none :: spare) := by simp
  rw [shuffleUp, hread, ← hset]
  rfl

/-- The rest moves to the end of what is done. -/
theorem shuffleUp_eq (hdone : none ∉ done) (hgap : none ∉ gap) (hne : gap ≠ [])
    (hfuel : rest.length < fuel) :
    ∃ spare', shuffleUp fuel (done ++ (gap ++ (rest.map some ++ none :: spare))) done.length
      (done.length + gap.length) = .ok (done ++ (rest.map some ++ none :: spare')) := by
  induction rest generalizing done gap fuel with
  | nil =>
    obtain ⟨fuel, rfl⟩ := Nat.exists_eq_succ_of_ne_zero (Nat.ne_of_gt hfuel)
    obtain ⟨first, gap, rfl⟩ := List.exists_cons_of_ne_nil hne
    exact ⟨_, shuffleUp_stop fuel (by simp_all)⟩
  | cons arg rest ih =>
    obtain ⟨fuel, rfl⟩ := Nat.exists_eq_succ_of_ne_zero (Nat.ne_of_gt (Nat.zero_lt_of_lt hfuel))
    obtain ⟨first, gap, rfl⟩ := List.exists_cons_of_ne_nil hne
    have hdone' : none ∉ done ++ [some arg] := by simp_all
    have hgap' : none ∉ gap ++ [some arg] := by simp_all
    obtain ⟨spare', hrest⟩ := ih hdone' hgap' (by simp) (Nat.lt_of_succ_lt_succ hfuel)
    have hnext := shuffleUp_next fuel arg (rest.map some ++ none :: spare)
      (by simp_all : none ∉ done ++ first :: gap)
    refine ⟨spare', hnext.trans (hrest.trans ?_)⟩
    rw [List.append_assoc]
    rfl

/-! ## The loop -/

theorem argAt_args (before : List String) (cell : Option String) (tail : List (Option String)) :
    argAt (before.map some ++ cell :: tail) before.length = .ok cell := by
  have hread := argAt_append (none_not_mem_map_some before) cell tail
  rwa [List.length_map] at hread

theorem cleanFrom_end (fuel : Nat) (before : List String) (spare : List (Option String)) :
    cleanFrom (fuel + 1) (before.map some ++ none :: spare) before.length =
      .ok (before.map some ++ none :: spare) := by
  rw [cleanFrom, argAt_args]
  rfl

/-- Another argument stays. -/
theorem cleanFrom_keep (fuel : Nat) (before : List String) (tail : List (Option String))
    (harg : arg ≠ "--state-fd") (hlevel : isLevel arg = false) :
    cleanFrom (fuel + 1) (before.map some ++ some arg :: tail) before.length =
      cleanFrom fuel ((before ++ [arg]).map some ++ tail) (before ++ [arg]).length := by
  have hcells : (before ++ [arg]).map some ++ tail = before.map some ++ some arg :: tail := by simp
  have hlength : (before ++ [arg]).length = before.length + 1 := by simp
  rw [cleanFrom, argAt_args, hcells, hlength]
  simp [bind, Except.bind, harg, hlevel]

/-- Arguments that go are those behind the ones that are done. -/
theorem shuffleUp_args (before rest : List String) {gone : List String} (hne : gone ≠ [])
    (spare : List (Option String)) :
    ∃ spare', shuffleUp
        (before.map some ++ (gone.map some ++ (rest.map some ++ none :: spare))).length
        (before.map some ++ (gone.map some ++ (rest.map some ++ none :: spare))) before.length
        (before.length + gone.length) =
      .ok (before.map some ++ (rest.map some ++ none :: spare')) := by
  have hfuel : rest.length <
      (before.map some ++ (gone.map some ++ (rest.map some ++ none :: spare))).length := by
    simp only [List.length_append, List.length_map, List.length_cons]
    omega
  obtain ⟨spare', hshuffle⟩ := shuffleUp_eq (none_not_mem_map_some before)
    (none_not_mem_map_some gone) (by simpa using hne) hfuel
  rw [List.length_map, List.length_map] at hshuffle
  exact ⟨spare', hshuffle⟩

/-- An option for the log level goes. -/
theorem cleanFrom_level (fuel : Nat) (before rest : List String) (spare : List (Option String))
    (harg : arg ≠ "--state-fd") (hlevel : isLevel arg = true) :
    ∃ spare', cleanFrom (fuel + 1)
        (before.map some ++ some arg :: (rest.map some ++ none :: spare)) before.length =
      cleanFrom fuel (before.map some ++ (rest.map some ++ none :: spare')) before.length := by
  obtain ⟨spare', hshuffle⟩ := shuffleUp_args before rest (List.cons_ne_nil arg []) spare
  simp only [List.map_cons, List.map_nil, List.singleton_append, List.length_singleton] at hshuffle
  refine ⟨spare', ?_⟩
  rw [cleanFrom, argAt_args]
  simp only [bind, Except.bind, if_neg harg, if_pos hlevel, hshuffle]

/-- `--state-fd` goes, with its value. -/
theorem cleanFrom_option (fuel : Nat) (before rest : List String) (value : String)
    (spare : List (Option String)) :
    ∃ spare', cleanFrom (fuel + 1) (before.map some ++ some "--state-fd" :: some value ::
        (rest.map some ++ none :: spare)) before.length =
      cleanFrom fuel (before.map some ++ (rest.map some ++ none :: spare')) before.length := by
  obtain ⟨spare', hshuffle⟩ :=
    shuffleUp_args before rest (List.cons_ne_nil "--state-fd" [value]) spare
  simp only [List.map_cons, List.map_nil, List.cons_append, List.nil_append, List.length_cons,
    List.length_nil, Nat.zero_add, Nat.reduceAdd] at hshuffle
  have hvalue := argAt_args (before ++ ["--state-fd"]) (some value) (rest.map some ++ none :: spare)
  have hcells : (before ++ ["--state-fd"]).map some ++ some value ::
      (rest.map some ++ none :: spare) = before.map some ++ some "--state-fd" :: some value ::
      (rest.map some ++ none :: spare) := by simp
  rw [hcells, List.length_append, List.length_singleton] at hvalue
  refine ⟨spare', ?_⟩
  rw [cleanFrom, argAt_args]
  simp only [bind, Except.bind, if_true, hvalue, hshuffle]

/-- Behind a `--state-fd` without a value, the loop goes on behind the `NULL`. -/
theorem cleanFrom_dangling (fuel : Nat) (before : List String) (spare : List (Option String)) :
    cleanFrom (fuel + 1) (before.map some ++ some "--state-fd" :: none :: spare) before.length =
      .error .outside := by
  have hvalue := argAt_args (before ++ ["--state-fd"]) none spare
  have hcells : (before ++ ["--state-fd"]).map some ++ none :: spare =
      before.map some ++ some "--state-fd" :: none :: spare := by simp
  have hbehind := argAt_behind ((before ++ ["--state-fd"]).map some) spare
  rw [hcells, List.length_map, List.length_append, List.length_singleton] at hbehind
  rw [hcells, List.length_append, List.length_singleton] at hvalue
  have hlength : (before.map some ++ some "--state-fd" :: none :: spare).length =
      (before.length + spare.length + 1) + 1 := by
    simp
    omega
  rw [cleanFrom, argAt_args]
  simp only [bind, Except.bind, if_true, hvalue]
  rw [hlength, shuffleUp, hbehind]
  rfl

/-- What is done is left alone, and the rest is cleaned, unless its last `--state-fd` has no
value. -/
theorem cleanFrom_eq {before rest : List String} (hfuel : rest.length < fuel) :
    (Dangling rest →
      cleanFrom fuel (before.map some ++ (rest.map some ++ none :: spare)) before.length =
        .error .outside) ∧
    (¬ Dangling rest → ∃ spare',
      cleanFrom fuel (before.map some ++ (rest.map some ++ none :: spare)) before.length =
        .ok ((before ++ cleaned rest).map some ++ none :: spare')) := by
  induction fuel generalizing before rest spare with
  | zero => exact absurd hfuel (Nat.not_lt_zero _)
  | succ fuel ih =>
    cases rest with
    | nil =>
      refine ⟨False.elim, fun _ => ⟨spare, ?_⟩⟩
      rw [cleaned, List.append_nil]
      exact cleanFrom_end fuel before spare
    | cons arg rest =>
      have hlt : rest.length < fuel := Nat.lt_of_succ_lt_succ hfuel
      by_cases harg : arg = "--state-fd"
      · subst harg
        cases rest with
        | nil => exact ⟨fun _ => cleanFrom_dangling fuel before spare, fun h => absurd rfl h⟩
        | cons value rest =>
          obtain ⟨spare', hstep⟩ := cleanFrom_option fuel before rest value spare
          rw [dangling_option, cleaned_option, List.map_cons, List.map_cons, List.cons_append,
            List.cons_append, hstep]
          exact ih (Nat.lt_of_succ_lt hlt)
      · rw [dangling_cons rest harg, List.map_cons, List.cons_append]
        cases hlevel : isLevel arg with
        | true =>
          obtain ⟨spare', hstep⟩ := cleanFrom_level fuel before rest spare harg hlevel
          rw [cleaned_level rest harg hlevel, hstep]
          exact ih hlt
        | false =>
          have happend : before ++ arg :: cleaned rest = (before ++ [arg]) ++ cleaned rest := by
            simp
          rw [cleaned_keep rest harg hlevel, happend, cleanFrom_keep fuel before _ harg hlevel]
          exact ih hlt

theorem argsUpTo_eq (args : List String) (spare : List (Option String)) :
    argsUpTo (args.map some ++ none :: spare) = args := by
  have hsome : ∀ arg ∈ args.map some, Option.isSome arg = true := by simp
  rw [argsUpTo, List.takeWhile_append_of_pos hsome]
  simp

/-- `clean_args` reads behind the array where the last `--state-fd` has no value, and cleans every
other array. -/
theorem cleanArgs_eq (args : List String) :
    (Dangling args → cleanArgs args = .error .outside) ∧ (¬ Dangling args → CleansRight args) := by
  have hfuel : args.length < (args.map some ++ [none]).length := by simp
  obtain ⟨hbad, hgood⟩ := @cleanFrom_eq [] _ [] args hfuel
  constructor
  · intro h
    have hrun : cleanArgsIn (args.map some ++ [none]) = .error .outside := hbad h
    rw [cleanArgs, hrun]
    rfl
  · intro h
    obtain ⟨spare', hrun⟩ := hgood h
    have hrun' : cleanArgsIn (args.map some ++ [none]) =
      .ok ((cleaned args).map some ++ none :: spare') := hrun
    rw [CleansRight, cleanArgs, hrun']
    exact congrArg Except.ok (argsUpTo_eq (cleaned args) spare')

theorem cleansRight_iff (args : List String) : CleansRight args ↔ ¬ Dangling args := by
  obtain ⟨hbad, hgood⟩ := cleanArgs_eq args
  constructor
  · intro hright hdangling
    rw [CleansRight, hbad hdangling] at hright
    cases hright
  · exact hgood

end Startup
