import Startup.Environ.Table

/-!
# Removing a variable (`init/environ.c`)

`environ_remove` compares the name with as many characters of an entry as its key
has, so that any key that the name starts with counts as the name; it goes on
behind the entry that has moved into the place of a removed one; and it shrinks the
array without keeping where `nih_realloc` has put it.

* `environRemove`: `environ_remove` in memory;
* `removeSkipping`: what it makes of the table (`environRemove_pointsTo`);
* `environRemove_iff`: when that is the table without the variable.
-/

namespace Startup

/-- `strncmp (a, b, n) == 0`. -/
def strncmpEq (a b : String) (n : Nat) : Bool := a.toList.take n = b.toList.take n

/-- The comparison of `environ_remove` for one entry. -/
def removeMatches (str e : String) : Bool := strncmpEq str e (entryKey e).length

/-- The loop of `environ_remove` from the cell `i` on; the number of cells bounds it. -/
def environRemoveFrom (str : String) : Nat → Nat → EnvTable → EnvTable
  | 0, _, t => t
  | n + 1, i, t =>
    match t.cells[i]?.join with
    | none => t
    | some e =>
      if removeMatches str e then
        -- shuffle up the remaining entries
        environRemoveFrom str n (i + 1) ⟨memmove t.cells i (i + 1) (t.len - i), t.len - 1⟩
      else environRemoveFrom str n (i + 1) t

/-- `environ_remove`: the array that `*env` points to afterwards, and whether there is a
result. `moved` says whether `nih_realloc` moves the array; `*env` keeps the old address, at
which there is no array any more. -/
def environRemove (moved : Bool) (t : EnvTable) (str : String) : Option EnvTable × Bool :=
  if t.len < 1 then (some t, false)
  else
    let t := environRemoveFrom str t.cells.length 0 t
    -- shrink amount of memory used
    (if moved then none else some { t with cells := t.cells.take (t.len + 1) }, true)

/-- A pointer to a table with these entries. -/
def PointsTo (p : Option EnvTable) (env : List String) : Prop := ∃ t, p = some t ∧ t.Holds env

variable {t : EnvTable} {env : List String} {name : String}

/-! ## The table that is left -/

/-- The entries that `environ_remove` leaves: the one behind a removed entry is not
looked at. -/
def removeSkipping (str : String) : List String → List String
  | [] => []
  | [e] => if removeMatches str e then [] else [e]
  | e :: next :: rest =>
    if removeMatches str e then next :: removeSkipping str rest
    else e :: removeSkipping str (next :: rest)

theorem cells_join {before rest : List String} {spare : List (Option String)}
    (h : t.cells = (before ++ rest).map some ++ none :: spare) :
    t.cells[before.length]?.join = rest.head? := by
  rw [h, List.map_append, List.append_assoc, List.getElem?_append_right (by simp)]
  cases rest <;> simp

theorem environRemoveFrom_stop {str : String} {i : Nat} (h : t.cells[i]?.join = none) (n : Nat) :
    environRemoveFrom str n i t = t := by
  cases n with
  | zero => rfl
  | succ n => rw [environRemoveFrom, h]

/-- The entries behind a removed one move up. -/
theorem removeEntry_holds {before rest : List String} {e : String} {spare : List (Option String)}
    (h : t.Holds (before ++ e :: rest))
    (hcells : t.cells = (before ++ e :: rest).map some ++ none :: spare) :
    ∃ t' : EnvTable,
      t' = ⟨memmove t.cells before.length (before.length + 1) (t.len - before.length),
        t.len - 1⟩ ∧
      t'.Holds (before ++ rest) ∧ t'.cells = (before ++ rest).map some ++ none :: none :: spare := by
  have hlt : before.length < (before ++ e :: rest).length := by simp
  have hrest : (before ++ e :: rest).eraseIdx before.length = before ++ rest := by
    rw [List.eraseIdx_append_of_length_le (Nat.le_refl _)]
    simp
  refine ⟨_, rfl, hrest ▸ h.erase hlt, ?_⟩
  rw [hcells, h.len, memmove_erase _ spare hlt, hrest]

/-- The loop takes out entries from where it is on. -/
theorem environRemoveFrom_holds (str : String) {n : Nat} {before rest : List String}
    {spare : List (Option String)} (h : t.Holds (before ++ rest))
    (hcells : t.cells = (before ++ rest).map some ++ none :: spare) (hn : rest.length < n) :
    (environRemoveFrom str n before.length t).Holds (before ++ removeSkipping str rest) := by
  induction n generalizing t before rest spare with
  | zero => exact absurd hn (Nat.not_lt_zero _)
  | succ n ih =>
    cases rest with
    | nil =>
      rw [environRemoveFrom_stop (cells_join hcells)]
      exact h
    | cons e rest =>
      have hlt : rest.length < n := Nat.lt_of_succ_lt_succ hn
      rw [environRemoveFrom, cells_join hcells]
      dsimp only [List.head?_cons]
      by_cases hhit : removeMatches str e = true
      · obtain ⟨t', ht', hholds, hcells'⟩ := removeEntry_holds h hcells
        rw [if_pos hhit, ← ht']
        cases rest with
        | nil =>
          -- the cell after the one that has been emptied is `NULL` as well
          have hend : t'.cells[before.length + 1]?.join = none := by
            rw [hcells', List.append_nil, List.getElem?_append_right (by simp)]
            simp
          rw [environRemoveFrom_stop hend, removeSkipping, if_pos hhit]
          exact hholds
        | cons next rest =>
          rw [removeSkipping, if_pos hhit]
          have hnext := @ih t' (before ++ [next]) rest (none :: spare) (by simpa using hholds)
            (by simpa using hcells') (Nat.lt_of_succ_lt hlt)
          simpa using hnext
      · rw [if_neg hhit]
        have hkeep : removeSkipping str (e :: rest) = e :: removeSkipping str rest := by
          cases rest <;> simp [removeSkipping, hhit]
        have hnext := @ih t (before ++ [e]) rest spare (by simpa using h) (by simpa using hcells) hlt
        rw [hkeep]
        simpa using hnext

theorem pointsTo_some {env' : List String} (h : t.Holds env) :
    PointsTo (some t) env' ↔ env' = env := by
  constructor
  · rintro ⟨_, ⟨⟩, h'⟩
    exact h'.unique h
  · rintro rfl
    exact ⟨t, rfl, h⟩

/-- The array that the loop leaves is cut behind its last entry. -/
theorem shrunk_holds {t' : EnvTable} (h : t'.Holds env) :
    (⟨t'.cells.take (t'.len + 1), t'.len⟩ : EnvTable).Holds env := by
  refine ⟨?_, h.len⟩
  rcases h.cells with ⟨hnull, hempty⟩ | ⟨spare, hcells⟩
  · refine .inl ⟨?_, hempty⟩
    show List.take _ t'.cells = []
    rw [hnull, List.take_nil]
  · refine .inr ⟨[], ?_⟩
    show List.take _ t'.cells = _
    rw [hcells, h.len, ← List.singleton_append, ← List.append_assoc]
    exact List.take_left' (by simp)

/-- `environ_remove` leaves `removeSkipping` of the table that the memory holds, unless the
array is moved. -/
theorem environRemove_pointsTo (h : t.Holds env) (moved : Bool) (str : String)
    {env' : List String} :
    PointsTo (environRemove moved t str).1 env' ↔
      (moved = false ∨ env = []) ∧ env' = removeSkipping str env := by
  have hlen := h.len
  unfold environRemove
  by_cases hempty : t.len < 1
  · have hnil : env = [] := List.length_eq_zero_iff.mp (by omega)
    subst hnil
    rw [if_pos hempty, pointsTo_some h, and_iff_right (.inr rfl)]
    rfl
  · rw [if_neg hempty]
    obtain ⟨spare, hcells⟩ := h.of_lt (i := 0) (by omega)
    have hne : env ≠ [] := by
      rintro rfl
      exact hempty (by simp [hlen])
    have hn : env.length < t.cells.length := by
      rw [hcells]
      simp
    have hloop := @environRemoveFrom_holds t str t.cells.length [] env spare h hcells hn
    rw [or_iff_left hne]
    cases moved with
    | true => exact iff_of_false (by rintro ⟨_, ⟨⟩, -⟩) fun hright => Bool.noConfusion hright.1
    | false =>
      rw [and_iff_right rfl]
      exact pointsTo_some (shrunk_holds hloop)

/-! ## When the variable is removed, and no other one -/

theorem removeMatches_iff {str e : String} :
    removeMatches str e = true ↔ entryKey e <+: str.toList := by
  have hkey : entryKey e = e.toList.take (entryKey e).length :=
    List.prefix_iff_eq_take.mp (List.takeWhile_prefix _)
  rw [removeMatches, strncmpEq, decide_eq_true_iff, ← hkey, List.prefix_iff_eq_take]
  exact eq_comm

/-- An entry of the variable matches. -/
theorem removeMatches_of_key {e : String} (h : entryKey e = name.toList) :
    removeMatches name e = true :=
  removeMatches_iff.mpr (h ▸ List.prefix_rfl)

/-- The entries of a table without a variable. -/
def withoutVariable (name : String) (env : List String) : List String :=
  env.filter fun e => entryKey e ≠ name.toList

theorem withoutVariable_cons_of_key {e : String} (h : entryKey e = name.toList) :
    withoutVariable name (e :: env) = withoutVariable name env :=
  List.filter_cons_of_neg (by simpa using h)

theorem withoutVariable_cons_of_ne {e : String} (h : entryKey e ≠ name.toList) :
    withoutVariable name (e :: env) = e :: withoutVariable name env :=
  List.filter_cons_of_pos (by simpa using h)

/-- What the scan of `environ_remove` has to meet: an entry that is looked at and whose
key begins the name has the name as its key, and the one behind it, which is not looked at,
has another key. -/
def RemovesExactly (name : String) : List String → Prop
  | [] => True
  | [e] => removeMatches name e = true → entryKey e = name.toList
  | e :: next :: rest =>
    if removeMatches name e then
      entryKey e = name.toList ∧ entryKey next ≠ name.toList ∧ RemovesExactly name rest
    else RemovesExactly name (next :: rest)

theorem removeSkipping_sublist (str : String) (env : List String) :
    (removeSkipping str env).Sublist env := by
  fun_induction removeSkipping str env with
  | case1 => exact .slnil
  | case2 e => exact List.nil_sublist _
  | case3 e => exact List.Sublist.refl _
  | case4 e next rest _ ih => exact (ih.cons_cons next).cons e
  | case5 e next rest _ ih => exact ih.cons_cons e

/-- Where all entries of the variable are gone, at most the others are left. -/
theorem length_removeSkipping_le
    (h : ∀ e ∈ removeSkipping name env, entryKey e ≠ name.toList) :
    (removeSkipping name env).length ≤ (withoutVariable name env).length := by
  have hall : withoutVariable name (removeSkipping name env) = removeSkipping name env :=
    List.filter_eq_self.mpr fun e he => by simpa using h e he
  rw [← hall]
  exact ((removeSkipping_sublist name env).filter _).length_le

/-- The scan leaves the table without the variable exactly when it meets what it has to. -/
theorem removeSkipping_eq_iff (name : String) (env : List String) :
    removeSkipping name env = withoutVariable name env ↔ RemovesExactly name env := by
  fun_induction RemovesExactly name env with
  | case1 => exact iff_of_true rfl trivial
  | case2 e =>
    by_cases hkey : entryKey e = name.toList
    · rw [removeSkipping, if_pos (removeMatches_of_key hkey), withoutVariable_cons_of_key hkey]
      exact iff_of_true rfl fun _ => hkey
    · rw [removeSkipping, withoutVariable_cons_of_ne hkey]
      by_cases hhit : removeMatches name e = true
      · rw [if_pos hhit]
        exact iff_of_false nofun fun h => hkey (h hhit)
      · rw [if_neg hhit]
        exact iff_of_true rfl fun h => absurd h hhit
  | case3 e next rest hhit ih =>
    rw [removeSkipping, if_pos hhit]
    constructor
    · intro heq
      have hgone : ∀ e ∈ next :: removeSkipping name rest, entryKey e ≠ name.toList := by
        intro e he
        rw [heq] at he
        simpa using (List.mem_filter.mp he).2
      have hnext : entryKey next ≠ name.toList := hgone next List.mem_cons_self
      by_cases hkey : entryKey e = name.toList
      · rw [withoutVariable_cons_of_key hkey, withoutVariable_cons_of_ne hnext] at heq
        exact ⟨hkey, hnext, ih.mp (List.cons.inj heq).2⟩
      · -- an entry of another variable is gone, and none of the variable makes up for it
        exfalso
        rw [withoutVariable_cons_of_ne hkey, withoutVariable_cons_of_ne hnext] at heq
        have hle := length_removeSkipping_le fun e he => hgone e (List.mem_cons_of_mem _ he)
        have hlength := congrArg List.length heq
        simp only [List.length_cons] at hlength
        omega
    · rintro ⟨hkey, hnext, hrest⟩
      rw [withoutVariable_cons_of_key hkey, withoutVariable_cons_of_ne hnext, ih.mpr hrest]
  | case4 e next rest hhit ih =>
    have hkey : entryKey e ≠ name.toList := fun hkey => hhit (removeMatches_of_key hkey)
    rw [removeSkipping, if_neg hhit, withoutVariable_cons_of_ne hkey, List.cons_inj_right, ih]

/-- `environ_remove` leaves the table without the variable, and its length, exactly when the
scan meets what it has to and the array stays where it is. -/
theorem environRemove_iff (h : t.Holds env) (moved : Bool) (name : String) :
    PointsTo (environRemove moved t name).1 (withoutVariable name env) ↔
      (moved = false ∨ env = []) ∧ RemovesExactly name env := by
  rw [environRemove_pointsTo h, ← removeSkipping_eq_iff, @eq_comm _ (withoutVariable name env)]

/-- A variable between two others. -/
theorem environRemove_iff_middle :
    PointsTo (environRemove false
        ⟨[some "A=1", some "PATH=/bin", some "B=2", none], 3⟩ "PATH").1
        (withoutVariable "PATH" ["A=1", "PATH=/bin", "B=2"]) ↔
      (false = false ∨ ["A=1", "PATH=/bin", "B=2"] = []) ∧
        RemovesExactly "PATH" ["A=1", "PATH=/bin", "B=2"] :=
  environRemove_iff ⟨.inr ⟨[], rfl⟩, rfl⟩ false "PATH"

/-- Removing `PATH` takes `PA` away, and leaves `PATH`, also when the array stays where it is. -/
theorem environRemove_prefix :
    ∃ (t : EnvTable) (env : List String), t.Holds env ∧ Restorable env ∧
      PointsTo (environRemove false t "PATH").1 ["PATH=/bin"] ∧
      ¬ PointsTo (environRemove false t "PATH").1 (withoutVariable "PATH" env) := by
  have h : (⟨[some "PA=1", some "PATH=/bin", none], 2⟩ : EnvTable).Holds ["PA=1", "PATH=/bin"] :=
    ⟨.inr ⟨[], rfl⟩, rfl⟩
  refine ⟨_, _, h, by decide, (environRemove_pointsTo h false _).mpr ⟨.inl rfl, by decide⟩, ?_⟩
  intro hright
  exact absurd ((environRemove_pointsTo h false _).mp hright).2 (by decide)

end Startup
