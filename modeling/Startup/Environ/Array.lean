import Startup.Environ

/-!
# Environment tables in memory (`init/environ.c`)

`environ_add` and `environ_remove` change an array of strings in place, and
the length that goes with it.  `EnvTable` is the memory of such an array, up to
and beyond the terminating `NULL`; `Holds` says which table it holds.

* `environAddTo` and `environAppendTo`: the table in memory after `environ_add` and
  `environ_append`;
* `environAddTo_holds` and `environAppendTo_holds`: they are `environAdd` and
  `environAppend` of the table that the memory holds.
-/

namespace Startup

/-- A `char **` and the length that goes with it.  A cell without a string is
`NULL`, and an array that is `NULL` itself has no cells. -/
structure EnvTable where
  cells : List (Option String)
  len : Nat
  deriving DecidableEq

namespace EnvTable

/-- No array. -/
def null : EnvTable := ⟨[], 0⟩

/-- The strings up to the terminating `NULL`. -/
def entries (t : EnvTable) : List String :=
  (t.cells.takeWhile Option.isSome).filterMap fun cell => cell

/-- The table with its length counted, for a caller that does not keep it. -/
def counted (t : EnvTable) : EnvTable := { t with len := t.entries.length }

/-- The memory holds a table, and `len` is the number of its entries. -/
structure Holds (t : EnvTable) (env : List String) : Prop where
  cells : (t.cells = [] ∧ env = []) ∨ ∃ spare, t.cells = env.map some ++ none :: spare
  len : t.len = env.length

end EnvTable

/-- `memmove` of `n` cells. -/
def memmove (cells : List (Option String)) (dest src n : Nat) : List (Option String) :=
  cells.take dest ++ (cells.drop src).take n ++ cells.drop (dest + n)

/-- `nih_str_array_addp`: the array has one cell more after the entries. -/
def strArrayAddp (t : EnvTable) (str : String) : EnvTable :=
  ⟨t.cells.take t.len ++ [some str, none], t.len + 1⟩

/-- What `environ_add` adds: the text, with the value of init's own environment where
it has none. -/
def newEntry (getenv : String → Option String) (str : String) : Option String :=
  if hasValue str then some str
  else (getenv str).map fun value => str ++ "=" ++ value

/-- `environ_add` in memory. -/
def environAddTo (getenv : String → Option String) (t : EnvTable) (replace : Bool)
    (str : String) : EnvTable :=
  match environLookup t.entries (entryKey str) with
  | some i =>
    if replace then
      match newEntry getenv str with
      | some s => { t with cells := t.cells.set i (some s) }
      | none => ⟨memmove t.cells i (i + 1) (t.len - i), t.len - 1⟩
    else t
  | none =>
    match newEntry getenv str with
    | some s => strArrayAddp t s
    | none => t

/-- `environ_append` in memory. -/
def environAppendTo (getenv : String → Option String) (t : EnvTable) (replace : Bool)
    (newEnv : List String) : EnvTable :=
  newEnv.foldl (fun t e => environAddTo getenv t replace e) t

variable {t : EnvTable} {env : List String}

/-! ## What the memory holds -/

theorem EnvTable.Holds.entries_eq (h : t.Holds env) : t.entries = env := by
  unfold EnvTable.entries
  rcases h.cells with ⟨hcells, rfl⟩ | ⟨spare, hcells⟩
  · rw [hcells]
    rfl
  · rw [hcells, List.takeWhile_append_of_pos]
    · simp
    · intro cell hcell
      obtain ⟨s, -, rfl⟩ := List.mem_map.mp hcell
      rfl

theorem EnvTable.Holds.counted (h : t.Holds env) : t.counted = t := by
  unfold EnvTable.counted
  rw [h.entries_eq, ← h.len]

/-- A memory holds one table only. -/
theorem EnvTable.Holds.unique {env' : List String} (h : t.Holds env) (h' : t.Holds env') :
    env = env' := h.entries_eq.symm.trans h'.entries_eq

/-- Moving the cells behind an entry over it takes the entry out. -/
theorem memmove_erase (env : List String) (spare : List (Option String)) {i : Nat}
    (hi : i < env.length) :
    memmove (env.map some ++ none :: spare) i (i + 1) (env.length - i) =
      (env.eraseIdx i).map some ++ none :: none :: spare := by
  have hle : i ≤ (env.map some).length := by
    rw [List.length_map]
    omega
  have htake : (env.map some ++ none :: spare).take i = (env.take i).map some := by
    rw [List.take_append_of_le_length hle, List.map_take]
  have hmid : ((env.map some ++ none :: spare).drop (i + 1)).take (env.length - i) =
      (env.drop (i + 1)).map some ++ [none] := by
    rw [List.drop_append_of_le_length (by rw [List.length_map]; omega), ← List.map_drop,
      List.take_append]
    have hlen : ((env.drop (i + 1)).map some).length = env.length - i - 1 := by
      rw [List.length_map, List.length_drop]
      omega
    have hone : env.length - i - (env.length - i - 1) = 1 := by omega
    rw [List.take_of_length_le (by omega), hlen, hone]
    rfl
  have hrest : (env.map some ++ none :: spare).drop (i + (env.length - i)) = none :: spare := by
    have hsum : i + (env.length - i) = (env.map some).length := by
      rw [List.length_map]
      omega
    rw [hsum, List.drop_left]
  rw [memmove, htake, hmid, hrest, List.eraseIdx_eq_take_drop_succ, List.map_append]
  simp

theorem strArrayAddp_holds (h : t.Holds env) (str : String) :
    (strArrayAddp t str).Holds (env ++ [str]) := by
  have htake : t.cells.take t.len = env.map some := by
    rw [h.len]
    rcases h.cells with ⟨hcells, rfl⟩ | ⟨spare, hcells⟩
    · rw [hcells]
      rfl
    · rw [hcells]
      exact List.take_left' (List.length_map some)
  refine ⟨.inr ⟨[], ?_⟩, ?_⟩
  · rw [strArrayAddp, htake, List.map_append]
    simp
  · rw [strArrayAddp, h.len, List.length_append]
    rfl

/-- An entry that is there is in the array. -/
theorem EnvTable.Holds.of_lt (h : t.Holds env) {i : Nat} (hi : i < env.length) :
    ∃ spare, t.cells = env.map some ++ none :: spare := by
  rcases h.cells with ⟨-, rfl⟩ | hcells
  · exact absurd hi (Nat.not_lt_zero i)
  · exact hcells

theorem EnvTable.Holds.set (h : t.Holds env) {i : Nat} (hi : i < env.length) (str : String) :
    { t with cells := t.cells.set i (some str) : EnvTable }.Holds (env.set i str) := by
  obtain ⟨spare, hcells⟩ := h.of_lt hi
  refine ⟨.inr ⟨spare, ?_⟩, ?_⟩
  · show t.cells.set i (some str) = _
    rw [hcells, List.set_append_left i _ (by rw [List.length_map]; exact hi), List.map_set]
  · rw [List.length_set]
    exact h.len

theorem EnvTable.Holds.erase (h : t.Holds env) {i : Nat} (hi : i < env.length) :
    (⟨memmove t.cells i (i + 1) (t.len - i), t.len - 1⟩ : EnvTable).Holds (env.eraseIdx i) := by
  obtain ⟨spare, hcells⟩ := h.of_lt hi
  refine ⟨.inr ⟨none :: spare, ?_⟩, ?_⟩
  · rw [hcells, h.len]
    exact memmove_erase env spare hi
  · rw [List.length_eraseIdx_of_lt hi, h.len]

/-! ## `environ_add` in memory -/

theorem environLookup_lt {key : List Char} {i : Nat} (h : environLookup env key = some i) :
    i < env.length :=
  (List.findIdx?_eq_some_iff_getElem.mp h).1

/-- `environ_add` in memory is `environ_add` of the table that the memory holds. -/
theorem environAddTo_holds (getenv : String → Option String) (h : t.Holds env) (replace : Bool)
    (str : String) :
    (environAddTo getenv t replace str).Holds (environAdd getenv env replace str) := by
  unfold environAddTo environAdd
  rw [h.entries_eq]
  cases hl : environLookup env (entryKey str) with
  | none =>
    show EnvTable.Holds (match newEntry getenv str with
      | some s => strArrayAddp t s
      | none => t) (match newEntry getenv str with
      | some s => env ++ [s]
      | none => env)
    cases newEntry getenv str with
    | none => exact h
    | some s => exact strArrayAddp_holds h s
  | some i =>
    have hi := environLookup_lt hl
    cases replace with
    | false => exact h
    | true =>
      show EnvTable.Holds (match newEntry getenv str with
        | some s => { t with cells := t.cells.set i (some s) }
        | none => ⟨memmove t.cells i (i + 1) (t.len - i), t.len - 1⟩)
        (match newEntry getenv str with
        | some s => env.set i s
        | none => env.eraseIdx i)
      cases newEntry getenv str with
      | none => exact h.erase hi
      | some s => exact h.set hi s

theorem environAppendTo_holds (getenv : String → Option String) (h : t.Holds env)
    (replace : Bool) (newEnv : List String) :
    (environAppendTo getenv t replace newEnv).Holds (environAppend getenv env replace newEnv) := by
  induction newEnv generalizing t env with
  | nil => exact h
  | cons e es ih => exact ih (environAddTo_holds getenv h replace e)

end Startup
