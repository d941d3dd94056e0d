import Mathlib.Data.List.Basic
import Mathlib.Tactic.Common

/-!
# Environment tables (`init/environ.c`)

A table is the list of its entries, without the terminating `NULL`.  An entry
is a string of the form `KEY=VALUE`; the key is the text before the first
`=`.  Only the functions that the job and event machinery calls are here.

`getenv` is a parameter of the functions that read the environment of init
itself.
-/

namespace Startup

/-- The key of an entry: `strcspn (str, "=")` characters of it. -/
def entryKey (str : String) : List Char :=
  str.toList.takeWhile (· ≠ '=')

/-- `strchr (str, '=') != NULL`. -/
def hasValue (str : String) : Bool :=
  str.toList.contains '='

/-- `environ_lookup`: the index of the first entry whose text starts with
`key` followed by `=`. -/
def environLookup (env : List String) (key : List Char) : Option Nat :=
  env.findIdx? fun e => (key ++ ['=']).isPrefixOf e.toList

/-- `environ_getn`: the text after the first `=` of the entry of `key`. -/
def environGetn (env : List String) (key : List Char) : Option (List Char) :=
  (environLookup env key).map fun i =>
    (((env.getD i "").toList).dropWhile (· ≠ '=')).drop 1

/-- `environ_add`.  An entry without `=` takes its value from init's own
environment; when it has none there, adding it with `replace` removes the
entry of that key. -/
def environAdd (getenv : String → Option String) (env : List String)
    (replace : Bool) (str : String) : List String :=
  let newStr : Option String :=
    if hasValue str then some str
    else (getenv str).map fun value => str ++ "=" ++ value
  match environLookup env (entryKey str) with
  | some i =>
    if replace then
      match newStr with
      | some s => env.set i s
      | none => env.eraseIdx i
    else env
  | none =>
    match newStr with
    | some s => env ++ [s]
    | none => env

/-- `environ_append`: `environ_add` for each entry of `newEnv` in turn. -/
def environAppend (getenv : String → Option String) (env : List String)
    (replace : Bool) (newEnv : List String) : List String :=
  newEnv.foldl (fun env e => environAdd getenv env replace e) env

/-- `environ_all_valid`: every entry is of the form `KEY=VALUE`. -/
def environAllValid (env : List String) : Bool :=
  env.all hasValue

/-! ## Expansion -/

/-- The errors that `environ_expand` raises. -/
inductive EnvironError where
  | unknownParam (name : List Char)
  | expectedOperator
  | mismatchedBraces
  deriving DecidableEq, Repr

/-- The operator of a bracketed reference. -/
inductive ExpandOp where
  | value
  | default
  | alternate
  deriving DecidableEq, Repr

/-- A character that may start a simple reference. -/
def isNameStart (c : Char) : Bool :=
  c == '_' || ('A' ≤ c && c ≤ 'Z') || ('a' ≤ c && c ≤ 'z')

/-- A character that may continue a simple reference. -/
def isNameChar (c : Char) : Bool :=
  isNameStart c || ('0' ≤ c && c ≤ '9')

/-- `(*str)[pos]`, which is NUL at the end of the string. -/
def charAt (str : List Char) (pos : Nat) : Char :=
  str.getD pos '\x00'

/-- `strchr (stops, c) != NULL`, which the terminating NUL satisfies. -/
def strchr (stops : List Char) (c : Char) : Bool :=
  stops.contains c || c == '\x00'

/-- The first position from `pos` whose character satisfies `stop`, or the
end of the string. -/
def scanTo (stop : Char → Bool) (str : List Char) (pos : Nat) : Nat :=
  pos + ((str.drop pos).takeWhile fun c => !stop c).length

/-- The text of `str` from `first` up to `last`. -/
def slice (str : List Char) (first last : Nat) : List Char :=
  (str.drop first).take (last - first)

/-- The substitute of a reference whose value in the table is `value` and
whose argument is `arg`: the `switch (op)` of `environ_expand_until`. -/
def expandValue (op : ExpandOp) (ignoreEmpty : Bool) (name arg : List Char)
    (value : Option (List Char)) : Except EnvironError (List Char) :=
  match op, value with
  | .value, none => .error (.unknownParam name)
  | .value, some v => .ok v
  | .default, none => .ok arg
  | .default, some v => .ok (if ignoreEmpty && v.isEmpty then arg else v)
  | .alternate, none => .ok []
  | .alternate, some v => .ok (if ignoreEmpty && v.isEmpty then [] else arg)

/-- The operator at `pos`, with whether it ignores empty values and the
position after it. -/
def expandOp (str : List Char) (pos : Nat) :
    Except EnvironError (ExpandOp × Bool × Nat) :=
  if charAt str pos = ':' ∧ charAt str (pos + 1) = '-' then .ok (.default, true, pos + 2)
  else if charAt str pos = ':' ∧ charAt str (pos + 1) = '+' then
    .ok (.alternate, true, pos + 2)
  else if charAt str pos = '-' then .ok (.default, false, pos + 1)
  else if charAt str pos = '+' then .ok (.alternate, false, pos + 1)
  else if charAt str pos ≠ '}' ∧ charAt str pos ≠ '\x00' then .error .expectedOperator
  else .ok (.value, false, pos)

/-- `environ_expand_until`: expand the references of `str` from `pos` up to a
character of `stops`.  Each pass of the loop and each nested call moves the
position over at least one character that was not substituted, so that
`length + 1` units of fuel are enough. -/
def environExpandUntil (env : List String) :
    Nat → List Char → List Char → Nat → Except EnvironError (List Char × Nat)
  | 0, _, str, pos => .ok (str, pos)
  | fuel + 1, stops, str, pos =>
    let pos := scanTo (fun c => c == '$' || stops.contains c) str pos
    if charAt str pos ≠ '$' then .ok (str, pos)
    else
      let start := pos
      let pos := pos + 1
      if isNameStart (charAt str pos) then do
        let last := scanTo (fun c => !isNameChar c) str pos
        let name := slice str pos last
        let value ← expandValue .value false name [] (environGetn env name)
        environExpandUntil env fuel stops
          (str.take start ++ value ++ str.drop last) (start + value.length)
      else if charAt str pos = '{' ∧ charAt str (pos + 1) = '}' then
        environExpandUntil env fuel stops
          (str.take start ++ ['$'] ++ str.drop (pos + 2)) (start + 1)
      else if charAt str pos = '{' then do
        let nameStart := pos + 1
        let (str, nameEnd) ← environExpandUntil env fuel ['}', ':', '-', '+'] str nameStart
        let (op, ignoreEmpty, argStart) ← expandOp str nameEnd
        let (str, argEnd) ← environExpandUntil env fuel ['}'] str argStart
        if charAt str argEnd ≠ '}' then .error .mismatchedBraces
        else
          let name := slice str nameStart nameEnd
          let value ← expandValue op ignoreEmpty name (slice str argStart argEnd)
            (environGetn env name)
          environExpandUntil env fuel stops
            (str.take start ++ value ++ str.drop (argEnd + 1)) (start + value.length)
      else environExpandUntil env fuel stops str pos

/-- `environ_expand`: the string with its references replaced by the values
of the table. -/
def environExpand (string : String) (env : List String) : Except EnvironError String :=
  (environExpandUntil env (string.toList.length + 1) [] string.toList 0).map
    fun r => String.ofList r.1

example : environExpand "tty-$DEV.${N:-x}${}" ["DEV=tty1", "N="] = .ok "tty-tty1.x$" := by
  decide

/-! ## Scanning -/

section
variable {s : List Char} {i : Nat} {stop : Char → Bool}

theorem drop_eq_charAt_cons (hi : i < s.length) : s.drop i = charAt s i :: s.drop (i + 1) := by
  rw [List.drop_eq_getElem_cons hi, charAt, List.getD_eq_getElem?_getD,
    List.getElem?_eq_getElem hi, Option.getD_some]

theorem scanTo_le (hi : i ≤ s.length) : scanTo stop s i ≤ s.length := by
  have hle := (List.takeWhile_prefix (fun c => !stop c) (l := s.drop i)).length_le
  rw [List.length_drop] at hle
  unfold scanTo
  omega

theorem scanTo_here (hi : i ≤ s.length) (hc : stop (charAt s i) = true) :
    scanTo stop s i = i := by
  rcases Nat.lt_or_eq_of_le hi with hlt | rfl
  · rw [scanTo, drop_eq_charAt_cons hlt, List.takeWhile_cons, hc]
    rfl
  · rw [scanTo, List.drop_length]
    rfl

theorem scanTo_next (hi : i < s.length) (hc : stop (charAt s i) = false) :
    scanTo stop s i = scanTo stop s (i + 1) := by
  rw [scanTo, drop_eq_charAt_cons hi, List.takeWhile_cons, hc, scanTo]
  show i + ((s.drop (i + 1)).takeWhile _).length.succ = _
  omega

theorem scanTo_congr {stop' : Char → Bool} (h : ∀ c ∈ s.drop i, stop c = stop' c) :
    scanTo stop s i = scanTo stop' s i := by
  unfold scanTo
  generalize s.drop i = l at h ⊢
  congr 2
  induction l with
  | nil => rfl
  | cons c cs ih =>
    rw [List.takeWhile_cons, List.takeWhile_cons, h c List.mem_cons_self,
      ih fun d hd => h d (List.mem_cons_of_mem _ hd)]

theorem charAt_length (s : List Char) : charAt s s.length = '\x00' := by
  rw [charAt, List.getD_eq_getElem?_getD, List.getElem?_eq_none (Nat.le_refl _)]
  rfl

end

/-! ## Tables whose entries all have a value -/

theorem environAllValid_iff {env : List String} :
    environAllValid env = true ↔ ∀ e ∈ env, hasValue e = true := by
  simp [environAllValid]

theorem environAllValid_nil : environAllValid [] = true := rfl

theorem hasValue_append_eq (key value : String) : hasValue (key ++ "=" ++ value) = true := by
  simp [hasValue]

/-- Adding an entry keeps every entry of the form `KEY=VALUE`. -/
theorem environAllValid_add {getenv : String → Option String} {env : List String}
    (h : environAllValid env = true) (replace : Bool) (str : String) :
    environAllValid (environAdd getenv env replace str) = true := by
  have hnew : ∀ s, (if hasValue str then some str
      else (getenv str).map fun value => str ++ "=" ++ value) = some s →
      hasValue s = true := by
    intro s hs
    split at hs
    · rename_i hv
      cases hs
      exact hv
    · obtain ⟨value, -, rfl⟩ := Option.map_eq_some_iff.mp hs
      exact hasValue_append_eq str value
  rw [environAllValid_iff] at h ⊢
  unfold environAdd
  intro e he
  dsimp only at he
  split at he
  · split at he
    · split at he
      · rename_i s hs
        rcases List.mem_or_eq_of_mem_set he with he | rfl
        · exact h e he
        · exact hnew _ hs
      · exact h e (List.mem_of_mem_eraseIdx he)
    · exact h e he
  · split at he
    · rename_i s hs
      rcases List.mem_append.mp he with he | he
      · exact h e he
      · rw [List.mem_singleton.mp he]
        exact hnew _ hs
    · exact h e he

end Startup
